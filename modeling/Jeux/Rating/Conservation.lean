import Mathlib.Analysis.SpecialFunctions.Pow.Real
import Mathlib.Data.Nat.Prime.Int
import Mathlib.Tactic.IntervalCases
import Jeux.Rating.Posting
import Jeux.Util.Machine
import Jeux.Service.Results

/-!
When `player_post_result` conserves rating points. Both new ratings lose their fraction on their
own, so a point gets lost, or appears, unless the two fractions are dropped in opposite directions.
-/

namespace Jeux

section Truncate

variable {K : Type} [Field K] [LinearOrder K] [FloorRing K] [IsStrictOrderedRing K] {x : K}

theorem floor_intCast_sub (n : Int) (x : K) : ⌊n - x⌋ = n - ⌈x⌉ := by
  rw [sub_eq_add_neg, Int.floor_intCast_add, Int.floor_neg]
  rfl

theorem ceil_intCast_sub (n : Int) (x : K) : ⌈n - x⌉ = n - ⌊x⌋ := by
  rw [sub_eq_add_neg, Int.ceil_intCast_add, Int.ceil_neg]
  rfl

/--
Two values of integral sum lose nothing to truncation if and only if they are integers or lie on
different sides of zero.
-/
theorem truncate_add_truncate_sub (x : K) (n : Int)
    : truncate x + truncate (n - x) = n ↔ (∃ k : Int, x = k) ∨ (x < 0 ↔ 0 ≤ n - x) := by
  by_cases hint : ∃ k : Int, x = k
  . obtain ⟨k, rfl⟩ := hint
    rw [← Int.cast_sub, truncate_intCast, truncate_intCast]
    simp
  . have hfloor : (⌊x⌋ : K) < x := lt_of_le_of_ne (Int.floor_le x) fun h => hint ⟨_, h.symm⟩
    have hceil : ⌈x⌉ = ⌊x⌋ + 1 := by
      apply le_antisymm (Int.ceil_le_floor_add_one x)
      exact Int.add_one_le_iff.mpr (Int.lt_ceil.mpr hfloor)
    rcases lt_or_ge x 0 with hx | hx <;> rcases lt_or_ge ((n : K) - x) 0 with hy | hy
    . rw [truncate_of_neg hx, truncate_of_neg hy, ceil_intCast_sub]
      simp only [hint, hx, hy.not_ge, false_or, iff_false, not_true]
      omega
    . rw [truncate_of_neg hx, truncate_of_nonneg hy, floor_intCast_sub]
      simp only [hint, hx, hy, false_or, iff_true]
      omega
    . rw [truncate_of_nonneg hx, truncate_of_neg hy, ceil_intCast_sub]
      simp only [hint, hx.not_gt, hy.not_ge, false_or, iff_true]
      omega
    . rw [truncate_of_nonneg hx, truncate_of_nonneg hy, floor_intCast_sub]
      simp only [hint, hx.not_gt, hy, false_or, iff_true, iff_false]
      omega

theorem truncate_drift (x : K) (n : Int) : |truncate x + truncate (n - x) - n| ≤ 1 := by
  have hle : ⌊x⌋ ≤ ⌈x⌉ := Int.floor_le_ceil x
  have hge : ⌈x⌉ ≤ ⌊x⌋ + 1 := Int.ceil_le_floor_add_one x
  rw [abs_le]
  unfold truncate
  rw [floor_intCast_sub, ceil_intCast_sub]
  split <;> split <;> omega

end Truncate

/-! ## The expected score -/

/--
`1 / (1 + 10**(d/400))` of player.h.
-/
noncomputable def elo (d : Int) : ℝ := 1 / (1 + (10 : ℝ) ^ ((d : ℝ) / 400))

theorem elo_expectation : Expectation elo := by
  have hpos : ∀ d : Int, (0 : ℝ) < (10 : ℝ) ^ ((d : ℝ) / 400) := fun d => by positivity
  constructor
  . intro d
    have := hpos d
    unfold elo
    positivity
  . intro d
    have := hpos d
    unfold elo
    rw [div_lt_one (by positivity)]
    linarith
  . intro d
    have := hpos d
    unfold elo
    push_cast
    rw [neg_div, Real.rpow_neg (by norm_num)]
    field_simp
    ring

/--
A power of ten other than `1` is no 400th power of a quotient `(32 - k) / k`: the quotient would
be an even divisor of `32`, less one.
-/
theorem pow_ne_mul_ten_pow {k : Int} (hpos : 0 < k) (hlt : k < 32) {d : Nat} (hd : d ≠ 0)
    : (32 - k) ^ 400 ≠ k ^ 400 * 10 ^ d := by
  intro h
  have hdvd : k ∣ 32 - k := by
    rw [← Int.pow_dvd_pow_iff (n := 400) (by norm_num), h]
    exact dvd_mul_right _ _
  obtain ⟨q, hq⟩ := hdvd
  rw [hq, mul_pow, mul_right_inj' (by positivity)] at h
  have heven : (2 : Int) ∣ q := by
    apply Int.prime_two.dvd_of_dvd_pow (n := 400)
    rw [h]
    exact dvd_pow (by norm_num) hd
  obtain ⟨m, rfl⟩ := heven
  interval_cases k <;> omega

theorem elo_ne_of_pos {d : Nat} (hd : d ≠ 0) (k : Int) : 32 * elo d ≠ k := by
  intro h
  have hpos : (0 : ℝ) < k := by linarith [elo_expectation.pos d]
  have hlt : (k : ℝ) < 32 := by linarith [elo_expectation.lt_one d]
  apply pow_ne_mul_ten_pow (Int.cast_pos.mp hpos) (by exact_mod_cast hlt) hd
  have hten : (0 : ℝ) < (10 : ℝ) ^ ((d : ℝ) / 400) := by positivity
  have hquot : (32 - k : ℝ) = k * (10 : ℝ) ^ ((d : ℝ) / 400) := by
    unfold elo at h
    rw [Int.cast_natCast] at h
    field_simp at h
    linarith
  have hpow : ((10 : ℝ) ^ ((d : ℝ) / 400)) ^ 400 = (10 : ℝ) ^ d := by
    rw [← Real.rpow_natCast, ← Real.rpow_mul (by norm_num), ← Real.rpow_natCast]
    norm_num
  have hreal : ((32 - k : ℝ)) ^ 400 = (k : ℝ) ^ 400 * (10 : ℝ) ^ d := by
    rw [hquot, mul_pow, hpow]
  exact_mod_cast hreal

theorem elo_ne {d : Int} (hd : d ≠ 0) (k : Int) : 32 * elo d ≠ k := by
  rcases Int.natAbs_eq d with h | h
  . rw [h]
    exact elo_ne_of_pos (by omega) k
  . intro hk
    apply elo_ne_of_pos (d := d.natAbs) (by omega) (32 - k)
    have := elo_expectation.add_neg (d.natAbs : Int)
    rw [← h] at this
    rw [Int.cast_sub, Int.cast_ofNat]
    linarith

/-! ## One game -/

/--
By the formula of player.h a player with this score falls below zero.
-/
def FallsBelowZero (rating opponentRating : Int) (score : ℝ) : Prop :=
  rating + (32 : Int) * score < (32 : Int) * elo (opponentRating - rating)

/--
The players have the same rating, or exactly one of them falls below zero.
-/
def LosesNoPoint (rating1 rating2 : Int) (result : GameRole) : Prop :=
  rating1 = rating2 ∨ (FallsBelowZero rating1 rating2 (score1 result)
    ↔ ¬FallsBelowZero rating2 rating1 (score2 result))

theorem documentedRating_neg {rating opponentRating : Int} {score : ℝ}
    : documentedRating rating score (elo (opponentRating - rating)) < 0
        ↔
      FallsBelowZero rating opponentRating score := by
  unfold documentedRating FallsBelowZero
  rw [Int.cast_ofNat]
  constructor
  . intro h
    linarith
  . intro h
    linarith

theorem score1_integral (result : GameRole) : ∃ k : Int, 32 * (score1 result : ℝ) = k := by
  cases result with
  | nullRole => exact ⟨16, by norm_num [score1]⟩
  | firstPlayerRole => exact ⟨32, by norm_num [score1]⟩
  | secondPlayerRole => exact ⟨0, by norm_num [score1]⟩

theorem documentedRating_integral {rating1 rating2 : Int} {result : GameRole}
    : (∃ k : Int, documentedRating rating1 (score1 result) (elo (rating2 - rating1)) = k)
        ↔
      rating1 = rating2 := by
  have ⟨points, hpoints⟩ := score1_integral result
  unfold documentedRating
  constructor
  . rintro ⟨k, hk⟩
    apply Classical.not_not.mp
    intro hne
    apply elo_ne (d := rating2 - rating1) (by omega) (rating1 + points - k)
    push_cast
    linarith
  . rintro rfl
    refine ⟨rating1 + points - 16, ?_⟩
    rw [sub_self, elo_expectation.zero]
    push_cast
    linarith

theorem postedRatings_add (rating1 rating2 : Int) (result : GameRole)
    : (postedRatings elo rating1 rating2 result).1 + (postedRatings elo rating1 rating2 result).2
          = rating1 + rating2
        ↔
      LosesNoPoint rating1 rating2 result := by
  have hsum := truncate_add_truncate_sub
    (documentedRating rating1 (score1 result) (elo (rating2 - rating1))) (rating1 + rating2)
  rw [elo_expectation.rest, documentedRating_integral, documentedRating_neg, ← not_lt,
    documentedRating_neg] at hsum
  rw [elo_expectation.postedRatings_eq]
  exact hsum

/-! ## The registered players -/

abbrev Ladder := List Int

section Ladder

variable {K : Type} [Field K] [LinearOrder K] [FloorRing K]

def Ladder.post (expected : Int → K) (ladder : Ladder) (place1 place2 : Nat) (result : GameRole)
    : Ladder :=
  if place1 = place2 then ladder
  else
    match ladder[place1]?, ladder[place2]? with
    | some rating1, some rating2 =>
      let ratings := postedRatings expected rating1 rating2 result
      (ladder.set place1 ratings.1).set place2 ratings.2
    | _, _ => ladder

inductive LadderEvent where
  | register
  | post (place1 place2 : Nat) (result : GameRole)

def ladderMachine (expected : Int → K) : Machine Ladder LadderEvent where
  step ladder
    | .register => some (ladder ++ [playerInitialRating])
    | .post place1 place2 result => some (ladder.post expected place1 place2 result)

end Ladder

/--
What is asked of a game before it is posted.
-/
def LadderEvent.LosesNoPoint (ladder : Ladder) : LadderEvent → Prop
  | .register => True
  | .post place1 place2 result =>
    ∀ rating1 rating2, place1 ≠ place2 → ladder[place1]? = some rating1 →
      ladder[place2]? = some rating2 → Jeux.LosesNoPoint rating1 rating2 result

def Store.ladder (s : Store) : Ladder :=
  s.playerRegistry.players.map fun player => (s.ratingOf player).getD 0

/--
What a posted result makes of the ratings in the store.
-/
theorem Store.ladder_post {s : Store} {place1 place2 : Nat} {player1 player2 : PlayerPtr}
    (expected : Int → Rat) (result : GameRole) (hnodup : s.playerRegistry.players.Nodup)
    (hlive : ∀ player ∈ s.playerRegistry.players, ∃ rating, s.ratingOf player = some rating)
    (h1 : s.playerRegistry.players[place1]? = some player1)
    (h2 : s.playerRegistry.players[place2]? = some player2)
    : (s.post expected ⟨player1, player2, result⟩).ladder
        =
      s.ladder.post expected place1 place2 result := by
  have ⟨rating1, hr1⟩ := hlive player1 (List.mem_of_getElem? h1)
  have ⟨rating2, hr2⟩ := hlive player2 (List.mem_of_getElem? h2)
  rw [List.getElem?_eq_some_iff] at h1 h2
  obtain ⟨hlt1, h1⟩ := h1
  obtain ⟨hlt2, h2⟩ := h2
  have hplace : ∀ {place player i} (hplace : place < s.playerRegistry.players.length)
      (hi : i < s.playerRegistry.players.length), s.playerRegistry.players[place] = player →
      (s.playerRegistry.players[i] = player ↔ place = i) := by
    intro place player i hplace hi h
    rw [← h, hnodup.getElem_inj_iff]
    exact eq_comm
  have hregistry : ∀ result, (s.post expected result).playerRegistry = s.playerRegistry := by
    intro result
    unfold Store.post
    split
    . rfl
    . split <;> rfl
  unfold Ladder.post ladder
  rw [hregistry]
  by_cases heq : place1 = place2
  . subst heq
    rw [if_pos rfl]
    simp only [ratingOf_post, h1.symm.trans h2, ↓reduceIte]
  . have hne : player1 ≠ player2 := by
      rintro rfl
      exact heq ((hplace hlt1 hlt2 h1).mp h2)
    rw [if_neg heq]
    simp only [List.getElem?_map, List.getElem?_eq_getElem hlt1, List.getElem?_eq_getElem hlt2,
      h1, h2, Option.map_some, hr1, hr2, Option.getD_some]
    apply List.ext_getElem
    . simp
    . intro i hi _
      rw [List.length_map] at hi
      simp only [List.getElem_map, List.getElem_set, ratingOf_post, hne, ↓reduceIte, hr1, hr2,
        hplace hlt1 hi h1, hplace hlt2 hi h2]
      split
      . rfl
      . split <;> rfl

theorem Ladder.post_sum {ladder : Ladder} {place1 place2 : Nat} {result : GameRole}
    (h : (LadderEvent.post place1 place2 result).LosesNoPoint ladder)
    : (ladder.post elo place1 place2 result).sum = ladder.sum
      ∧ (ladder.post elo place1 place2 result).length = ladder.length := by
  unfold Ladder.post
  split
  . exact ⟨rfl, rfl⟩
  . next hne =>
    split
    . next rating1 rating2 h1 h2 =>
      have hkept := (postedRatings_add rating1 rating2 result).mpr (h rating1 rating2 hne h1 h2)
      rw [List.getElem?_eq_some_iff] at h1 h2
      obtain ⟨hlt1, h1⟩ := h1
      obtain ⟨hlt2, h2⟩ := h2
      refine ⟨?_, by simp⟩
      rw [List.sum_set', List.sum_set']
      simp only [List.length_set, hlt1, hlt2, ↓reduceDIte, List.getElem_set_ne hne, h1, h2]
      omega
    . exact ⟨rfl, rfl⟩

theorem ladder_total {ladder : Ladder}
    (h : (ladderMachine elo).Reach (fun ladder e => e.LosesNoPoint ladder) [] ladder)
    : ladder.sum = playerInitialRating * ladder.length := by
  refine h.invariant (fun ladder => ladder.sum = playerInitialRating * ladder.length) rfl ?_
  intro ladder e ladder' hinv hguard hstep
  cases e with
  | register =>
    obtain rfl := Option.some.inj hstep
    rw [List.sum_append, hinv, List.length_append]
    simp only [List.sum_singleton, List.length_singleton]
    push_cast
    ring
  | post place1 place2 result =>
    obtain rfl := Option.some.inj hstep
    have ⟨hsum, hlength⟩ := Ladder.post_sum hguard
    rw [hsum, hlength, hinv]

/--
A posted game conserves the sum of its two ratings if and only if these are equal or exactly one of
the players falls below zero. When all games are like that, nothing is lost over any run.
-/
theorem conserved_iff_losesNoPoint (rating1 rating2 : Int) (result : GameRole) (ladder : Ladder)
    : ((postedRatings elo rating1 rating2 result).1 + (postedRatings elo rating1 rating2 result).2
            = rating1 + rating2
          ↔
        LosesNoPoint rating1 rating2 result)
      ∧ ((ladderMachine elo).Reach (fun ladder e => e.LosesNoPoint ladder) [] ladder →
          ladder.sum = playerInitialRating * ladder.length) :=
  ⟨postedRatings_add rating1 rating2 result, ladder_total⟩

theorem not_losesNoPoint {rating1 rating2 : Int} (hne : rating1 ≠ rating2) (h1 : 32 ≤ rating1)
    (h2 : 32 ≤ rating2) (result : GameRole) : ¬LosesNoPoint rating1 rating2 result := by
  have hfalls : ∀ {rating rating' : Int} {score : ℝ}, 32 ≤ rating → 0 ≤ score →
      ¬FallsBelowZero rating rating' score := by
    intro rating rating' score h hscore hfalls
    have hexp := elo_expectation.lt_one (rating' - rating)
    have hrating : (32 : ℝ) ≤ rating := by exact_mod_cast h
    unfold FallsBelowZero at hfalls
    rw [Int.cast_ofNat] at hfalls
    linarith
  rintro (heq | hone)
  . exact hne heq
  . exact hfalls h1 (score1_mem result).1 (hone.mpr (hfalls h2 (score2_mem result).1))

theorem Ladder.post_equal {ladder : Ladder} {place1 place2 : Nat} {rating : Int}
    (hne : place1 ≠ place2) (h1 : ladder[place1]? = some rating) (h2 : ladder[place2]? = some rating)
    : ladder.post elo place1 place2 .firstPlayerRole
        =
      (ladder.set place1 (rating + 16)).set place2 (rating - 16) := by
  unfold Ladder.post
  rw [if_neg hne, h1, h2]
  simp only [elo_expectation.won]

theorem rating_of_prefix {ladder ladder' : Ladder} {place : Nat} {rating : Int}
    (h : ladder <+: ladder') (hrating : ladder[place]? = some rating)
    : ladder'[place]? = some rating := by
  obtain ⟨rest, rfl⟩ := h
  rw [List.getElem?_append_left (List.getElem?_eq_some_iff.mp hrating).1, hrating]

theorem prefix_set {ladder ladder' : Ladder} {place : Nat} (h : ladder <+: ladder')
    (hle : ladder.length ≤ place) (rating : Int) : ladder <+: ladder'.set place rating := by
  obtain ⟨rest, rfl⟩ := h
  rw [List.set_append_right place rating hle]
  exact List.prefix_append _ _

/--
However many games are to be lost, there can be a player who has lost them, all to equals. The
players there were before need no part in it.
-/
theorem exists_beaten (k : Nat) {ladder : Ladder}
    (h : (ladderMachine elo).Reach (fun ladder e => e.LosesNoPoint ladder) [] ladder)
    : ∃ ladder' place,
        (ladderMachine elo).Reach (fun ladder e => e.LosesNoPoint ladder) [] ladder'
          ∧ ladder <+: ladder' ∧ ladder.length ≤ place
          ∧ ladder'[place]? = some (playerInitialRating - 16 * k) := by
  induction k generalizing ladder with
  | zero =>
    refine ⟨ladder ++ [playerInitialRating], ladder.length, .step (e := .register) h trivial rfl,
      List.prefix_append _ _, Nat.le_refl _, ?_⟩
    rw [List.getElem?_concat_length, Nat.cast_zero, mul_zero, sub_zero]
  | succ k ih =>
    -- two players who have lost `k` games each play another one
    obtain ⟨ladder₁, place₁, h₁, hprefix₁, hle₁, hrating₁⟩ := ih h
    obtain ⟨ladder₂, place₂, h₂, hprefix₂, hle₂, hrating₂⟩ := ih h₁
    have hlt₁ : place₁ < ladder₁.length := (List.getElem?_eq_some_iff.mp hrating₁).1
    have hne : place₂ ≠ place₁ := by omega
    have hrating₁' := rating_of_prefix hprefix₂ hrating₁
    have hpost := Ladder.post_equal hne hrating₂ hrating₁'
    have hprefix := hprefix₁.trans hprefix₂
    refine ⟨ladder₂.post elo place₂ place₁ .firstPlayerRole, place₁,
      .step (e := .post place₂ place₁ .firstPlayerRole) h₂ ?_ rfl, ?_, hle₁, ?_⟩
    . intro rating1 rating2 _ h1 h2
      rw [hrating₂, Option.some.injEq] at h1
      rw [hrating₁', Option.some.injEq] at h2
      exact .inl (h1.symm.trans h2)
    . rw [hpost]
      have hle : ladder.length ≤ place₂ := by
        have := hprefix₁.length_le
        omega
      exact prefix_set (prefix_set hprefix hle _) hle₁ _
    . have hlt : place₁ < ladder₂.length := by
        have := hprefix₂.length_le
        omega
      rw [hpost, List.getElem?_set_self (by simpa using hlt)]
      push_cast
      ring_nf

/--
A player who is left with `12` points beats one who is below zero.
-/
theorem conserved_of_below_zero
    : ∃ (ladder : Ladder) (place1 place2 : Nat),
        ladder[place1]? = some 12 ∧ ladder[place2]? = some (-4)
        ∧ (ladderMachine elo).Reach (fun ladder e => e.LosesNoPoint ladder) []
          (ladder.post elo place1 place2 .firstPlayerRole)
        ∧ (postedRatings elo 12 (-4) .firstPlayerRole).1
          + (postedRatings elo 12 (-4) .firstPlayerRole).2 = 12 + -4
        ∧ (ladder.post elo place1 place2 .firstPlayerRole).sum
          = playerInitialRating * (ladder.post elo place1 place2 .firstPlayerRole).length := by
  have hnobody : (ladderMachine elo).Reach (fun ladder e => e.LosesNoPoint ladder) [] [] := .refl
  obtain ⟨ladder₁, place₁, h₁, -, -, hrating₁⟩ := exists_beaten 94 hnobody
  obtain ⟨ladder₂, place₂, h₂, hprefix, -, hrating₂⟩ := exists_beaten 93 h₁
  have hrating₁' := rating_of_prefix hprefix hrating₁
  have hloses : LosesNoPoint 12 (-4) .firstPlayerRole := by
    have hhigh := elo_expectation.lt_one (-16)
    have hlow := elo_expectation.pos 16
    refine .inr (iff_of_false ?_ (not_not_intro ?_))
    . unfold FallsBelowZero score1
      push_cast
      linarith
    . unfold FallsBelowZero score2
      push_cast
      linarith
  have hreach := Machine.Reach.step (e := .post place₂ place₁ .firstPlayerRole) h₂ (by
    intro rating1 rating2 _ h1 h2
    rw [hrating₂, Option.some.injEq] at h1
    rw [hrating₁', Option.some.injEq] at h2
    subst h1 h2
    exact hloses) rfl
  obtain ⟨hgame, hrun⟩ := conserved_iff_losesNoPoint 12 (-4) .firstPlayerRole
    (ladder₂.post elo place₂ place₁ .firstPlayerRole)
  exact ⟨ladder₂, place₂, place₁, hrating₂, hrating₁', hreach, hgame.mpr hloses, hrun hreach⟩

theorem ladder_reach_won : (ladderMachine elo).Reach (fun _ _ => True) [] [1516, 1484] := by
  have hregistered : (ladderMachine elo).Reach (fun _ _ => True) [] [1500, 1500] :=
    .step (e := .register) (.step (e := .register) .refl trivial rfl) trivial rfl
  have hfirst : ([1500, 1500] : Ladder)[0]? = some 1500 := rfl
  have hsecond : ([1500, 1500] : Ladder)[1]? = some 1500 := rfl
  have hpost := Ladder.post_equal Nat.zero_ne_one hfirst hsecond
  exact .step (e := .post 0 1 .firstPlayerRole) hregistered trivial (congrArg some hpost)

/--
Two players register, and the first one wins twice. After the first game they have `1516` and
`1484` points. The second one takes a point away from them.
-/
theorem not_conserved
    : (postedRatings elo 1516 1484 .firstPlayerRole).1
          + (postedRatings elo 1516 1484 .firstPlayerRole).2 ≠ 1516 + 1484
      ∧ ∃ ladder, (ladderMachine elo).Reach (fun _ _ => True) [] ladder
          ∧ ladder.sum ≠ playerInitialRating * ladder.length := by
  have hlost : (postedRatings elo 1516 1484 .firstPlayerRole).1
      + (postedRatings elo 1516 1484 .firstPlayerRole).2 ≠ 1516 + 1484 := by
    intro h
    rw [postedRatings_add] at h
    exact not_losesNoPoint (by decide) (by decide) (by decide) _ h
  refine ⟨hlost, Ladder.post elo [1516, 1484] 0 1 .firstPlayerRole, ?_, ?_⟩
  . exact .step (e := .post 0 1 .firstPlayerRole) ladder_reach_won trivial rfl
  . intro hsum
    apply hlost
    simpa [Ladder.post, playerInitialRating] using hsum

end Jeux
