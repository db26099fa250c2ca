import Jeux.Util.Ledger
import Jeux.Lemmas.Counts
import Jeux.Rating.Conservation
import Jeux.Service.Safety

/-!
The ratings over whole runs. Whatever fails on the way, the ratings are what the results posted so
far make of the initial ones. So they can neither run away from each other nor from where they began
by more than there have been games.
-/

namespace Jeux

variable {env : Env} {w w' : World} {client opponent : ClientPtr} {c : Client} {σ σ' : Server}
  {e : Event} {op : Operation} {r : Int} {inv : InvitationPtr} {gate gate' : Int} {pkt : Packet}
  {player : PlayerPtr} {name : CString} {nodes : List InvitationNode}

/-! ## The ledger of results -/

def PostedResult.entry (result : PostedResult) : LedgerEntry PlayerPtr GameRole where
  left := result.player1
  right := result.player2
  outcome := result.result

/--
The ratings after some results, for players that all began with the same one.
-/
def ratingsAfter (expected : Int → Rat) (posted : List PostedResult) : PlayerPtr → Int :=
  Ledger.replay (postedRatings expected) (fun _ => playerInitialRating)
    (posted.map PostedResult.entry)

def gamesOf (posted : List PostedResult) (player : PlayerPtr) : Nat :=
  posted.countP fun result => player = result.player1 ∨ player = result.player2

theorem postedRatings_drifts (expected : Int → Rat) : Ledger.Drifts (postedRatings expected) 1 :=
  fun _ _ _ => truncate_drift _ _

theorem postedRatings_moderate {expected : Int → Rat} (h : ∀ d, 0 ≤ expected d ∧ expected d ≤ 1)
    : Ledger.Moderate (postedRatings expected) 32 :=
  postedRatings_bounded h

theorem countP_entry (posted : List PostedResult) (player : PlayerPtr)
    : (posted.map PostedResult.entry).countP (·.Concerns player) = gamesOf posted player := by
  rw [List.countP_map]
  rfl

/-! ## What the steps keep -/

namespace World

/--
The ratings of the registered players are what the results make of them, and nobody else has had a
part in these.
-/
structure Replays (expected : Int → Rat) (w : World) : Prop where
  ratings : ∀ player ∈ w.store.playerRegistry.players, ∀ rating,
    w.store.ratingOf player = some rating → rating = ratingsAfter expected w.trace.posted player
  known : ∀ result ∈ w.trace.posted, result.player1 ∈ w.store.playerRegistry.players
    ∧ result.player2 ∈ w.store.playerRegistry.players

variable {expected : Int → Rat}

theorem Replays.congr (h : w.Replays expected)
    (hratings : ∀ player, w'.store.ratingOf player = w.store.ratingOf player)
    (hregistry : w'.store.playerRegistry = w.store.playerRegistry)
    (hposted : w'.trace.posted = w.trace.posted) : w'.Replays expected where
  ratings := by
    rw [hregistry, hposted]
    intro player hmem rating hrating
    exact h.ratings player hmem rating ((hratings player).symm.trans hrating)
  known := by
    rw [hregistry, hposted]
    exact h.known

theorem Replays.of_players (h : w.Replays expected) (hplayers : w'.store.players = w.store.players)
    (hregistry : w'.store.playerRegistry = w.store.playerRegistry)
    (hposted : w'.trace.posted = w.trace.posted) : w'.Replays expected :=
  h.congr (Store.ratingOf_congr hplayers) hregistry hposted

theorem Replays.post {extra : ClientPtr → Nat} (h : w.Replays expected) (hv : w.store.Valid extra)
    {result : PostedResult} (h1 : result.player1 ∈ w.store.playerRegistry.players)
    (h2 : result.player2 ∈ w.store.playerRegistry.players)
    (hratings : ∀ player,
      w'.store.ratingOf player = (w.store.post expected result).ratingOf player)
    (hregistry : w'.store.playerRegistry = w.store.playerRegistry)
    (hposted : w'.trace.posted = w.trace.posted ++ [result]) : w'.Replays expected where
  ratings := by
    rw [hregistry, hposted]
    intro player hmem rating hrating
    have hentries : ratingsAfter expected (w.trace.posted ++ [result])
        = Ledger.post (postedRatings expected) (ratingsAfter expected w.trace.posted)
          result.entry := by
      rw [ratingsAfter, List.map_append, List.map_singleton, Ledger.replay_concat]
      rfl
    rw [hratings, Store.ratingOf_post] at hrating
    rw [hentries]
    by_cases hself : result.player1 = result.player2
    . rw [if_pos hself] at hrating
      rw [Ledger.post, if_pos (show result.entry.left = result.entry.right from hself)]
      exact h.ratings player hmem rating hrating
    . obtain ⟨p1, hp1, -⟩ := hv.player _ h1
      obtain ⟨p2, hp2, -⟩ := hv.player _ h2
      have hr1 : w.store.ratingOf result.player1 = some p1.rating := by simp [Store.ratingOf, hp1]
      have hr2 : w.store.ratingOf result.player2 = some p2.rating := by simp [Store.ratingOf, hp2]
      rw [if_neg hself, hr1, hr2] at hrating
      dsimp only at hrating
      rw [Ledger.post_apply hself, PostedResult.entry]
      dsimp only
      rw [← h.ratings _ h1 _ hr1, ← h.ratings _ h2 _ hr2]
      split
      . next heq => rw [if_pos heq] at hrating; exact (Option.some.inj hrating).symm
      . next hne2 =>
        rw [if_neg hne2] at hrating
        split
        . next heq => rw [if_pos heq] at hrating; exact (Option.some.inj hrating).symm
        . next hne1 =>
          rw [if_neg hne1] at hrating
          exact h.ratings player hmem rating hrating
  known := by
    rw [hregistry, hposted]
    intro result' hmem
    rcases List.mem_append.mp hmem with hmem | hmem
    . exact h.known result' hmem
    . rw [List.mem_singleton] at hmem
      exact hmem ▸ ⟨h1, h2⟩

theorem Replays.enlist {extra : ClientPtr → Nat} (h : w.Replays expected)
    (hv : w.store.Valid extra) (name : CString)
    (hratings : ∀ player, w'.store.ratingOf player = (w.store.enlist name).ratingOf player)
    (hregistry : w'.store.playerRegistry = (w.store.enlist name).playerRegistry)
    (hposted : w'.trace.posted = w.trace.posted) : w'.Replays expected := by
  cases hnamed : w.store.playerNamed name with
  | some player =>
    have hsame : w.store.enlist name = w.store := by simp [Store.enlist, hnamed]
    rw [hsame] at hregistry
    simp only [hsame] at hratings
    exact h.congr hratings hregistry hposted
  | none =>
    have hadd : w.store.enlist name = w.store.addPlayer name := by simp [Store.enlist, hnamed]
    rw [hadd] at hregistry
    simp only [hadd] at hratings
    have hold : ∀ player ∈ w.store.playerRegistry.players, player ≠ w.store.players.next := by
      intro player hmem
      obtain ⟨p, hp, -⟩ := hv.player player hmem
      exact Heap.ne_next_of_get? hp
    constructor
    . rw [hregistry, hposted]
      intro player hmem rating hrating
      rw [hratings] at hrating
      unfold Store.ratingOf Store.addPlayer at hrating
      dsimp only at hrating
      rw [Heap.get?_push] at hrating
      split at hrating
      . next heq =>
        rw [Option.map_some, Option.some.injEq] at hrating
        rw [← hrating, ratingsAfter, Ledger.replay_of_not_concerns]
        intro e he hconcerns
        obtain ⟨result, hresult, rfl⟩ := List.mem_map.mp he
        obtain ⟨h1, h2⟩ := h.known result hresult
        rcases hconcerns with heq' | heq'
        . exact hold _ h1 (heq'.symm.trans heq)
        . exact hold _ h2 (heq'.symm.trans heq)
      . next hne =>
        unfold Store.addPlayer at hmem
        dsimp only at hmem
        rcases List.mem_append.mp hmem with hmem | hmem
        . exact h.ratings player hmem rating hrating
        . exact absurd (List.mem_singleton.mp hmem) hne
    . rw [hregistry, hposted]
      intro result hmem
      obtain ⟨h1, h2⟩ := h.known result hmem
      unfold Store.addPlayer
      exact ⟨List.mem_append_left _ h1, List.mem_append_left _ h2⟩

end World

theorem World.Replays.conclude {extra : ClientPtr → Nat} {co : Client}
    {player playero : PlayerPtr} {role winner : GameRole} (h : w.Replays env.expected)
    (hv : w.store.Valid extra) (hc : w.store.clients.get? client = some c)
    (hco : w.store.clients.get? opponent = some co) (hplayer : c.player = some player)
    (hplayero : co.player = some playero) (hplayers : w'.store.players = w.store.players)
    (hregistry : w'.store.playerRegistry = w.store.playerRegistry)
    (hposted : w'.trace.posted = w.trace.posted)
    : (w'.conclude env client opponent inv (resultOf role player playero winner)).Replays
        env.expected := by
  have hknown := (hv.client client c hc).known player hplayer
  have hknowno := (hv.client opponent co hco).known playero hplayero
  have hboth : (resultOf role player playero winner).player1 ∈ w.store.playerRegistry.players
      ∧ (resultOf role player playero winner).player2 ∈ w.store.playerRegistry.players := by
    unfold resultOf
    split
    . exact ⟨hknown, hknowno⟩
    . exact ⟨hknowno, hknown⟩
  have hsame : ∀ player, w'.store.ratingOf player = w.store.ratingOf player :=
    Store.ratingOf_congr hplayers
  refine h.post hv hboth.1 hboth.2 ?_ ?_ ?_
  . intro x
    rw [World.conclude, Store.ratingOf_congr (Store.dissolve_players ..)]
    simp only [Store.ratingOf_post, hsame]
  . have hdissolve := (Store.keepsSessions_dissolve (w'.store.post env.expected
      (resultOf role player playero winner)) client opponent inv).playerRegistry
    have hpost := (Store.keepsSessions_post w'.store env.expected
      (resultOf role player playero winner)).playerRegistry
    exact (hdissolve.trans hpost).trans hregistry
  . rw [World.conclude]
    exact congrArg (· ++ [resultOf role player playero winner]) hposted

theorem Effect.replays {extra : ClientPtr → Nat} (h : Effect env w client op r w')
    (hv : w.store.Valid extra) (hreplays : w.Replays env.expected) : w'.Replays env.expected := by
  have hregistry := h.keepsSessions.playerRegistry
  cases h with
  | refused => exact hreplays.of_players rfl hregistry rfl
  | made => exact hreplays.of_players rfl hregistry rfl
  | revokeUnsent => exact hreplays.of_players rfl hregistry rfl
  | revoked => exact hreplays.of_players (Store.dissolve_players ..) hregistry rfl
  | revokedByTarget => exact hreplays.of_players (Store.drop_players ..) hregistry rfl
  | declined => exact hreplays.of_players (Store.dissolve_players ..) hregistry rfl
  | declinedBySource => exact hreplays.of_players (Store.drop_players ..) hregistry rfl
  | acceptNoRoom => exact hreplays.of_players rfl hregistry rfl
  | accepted => exact hreplays.of_players rfl hregistry rfl
  | resignUnsent => exact hreplays.of_players rfl hregistry rfl
  | resigned _ hc hco hplayer hplayero =>
    exact hreplays.conclude hv hc hco hplayer hplayero rfl rfl rfl
  | moveUnsent => exact hreplays.of_players rfl hregistry rfl
  | moved => exact hreplays.of_players rfl hregistry rfl
  | endUnsent => exact hreplays.of_players rfl hregistry rfl
  | endUnsentSelf => exact hreplays.of_players rfl hregistry rfl
  | finished _ hc hco hplayer hplayero =>
    exact hreplays.conclude hv hc hco hplayer hplayero rfl rfl rfl

theorem LogoutRun.replays (h : LogoutRun env client w nodes w')
    (hserves : w.store.Serves (fun _ => 0) client) (hreplays : w.Replays env.expected)
    : w'.Replays env.expected := by
  induction h with
  | nil => exact hreplays
  | cons _ _ _ heffect _ ih =>
    exact ih (heffect.serves hserves (hserves.callable (logoutOp_ne_make _ _ _)))
      (heffect.replays hserves.valid hreplays)

theorem Store.ratingOf_modify {s s' : Store} {f : Player → Player} (player : PlayerPtr)
    (hplayers : s'.players = s.players.modify player f) (hf : ∀ p, (f p).rating = p.rating)
    (x : PlayerPtr) : s'.ratingOf x = s.ratingOf x := by
  rw [Store.ratingOf, hplayers, Heap.map_get?_modify hf]
  rfl

theorem Departs.replays (h : Departs env client w w')
    (hserves : w.store.Serves (fun _ => 0) client) (hreplays : w.Replays env.expected)
    : w'.Replays env.expected := by
  cases h with
  | @loggedOut c i =>
    obtain ⟨hplayers, hregistry, -⟩ := Store.unregister_players w.store client i
    exact hreplays.of_players hplayers hregistry rfl
  | @loggedIn c w₁ player i hc _ _ hlogout hi =>
    obtain ⟨hplayers, hregistry, -⟩ :=
      Store.unregister_players (w₁.store.leave client player) client i
    refine (hlogout.replays hserves hreplays).congr (fun x => ?_) hregistry rfl
    rw [Store.ratingOf_congr hplayers]
    exact Store.ratingOf_modify player (Store.leave_players ..) (fun _ => rfl) x

theorem Served.replays (h : Served env w client gate pkt gate' w')
    (hv : w.store.Valid fun _ => 0) (hreplays : w.Replays env.expected)
    : w'.Replays env.expected := by
  have hanswered : ∀ {w₁ : World} {r : Int} {data : Option CString}, w₁.Replays env.expected →
      (w₁.answered env client r data).Replays env.expected := by
    intro w₁ r data h₁
    unfold World.answered
    split <;> exact h₁.of_players rfl rfl rfl
  cases h with
  | ignored => exact hreplays
  | shut => exact hreplays.of_players rfl rfl rfl
  | users => exact hreplays.of_players rfl rfl rfl
  | unfit => exact hreplays.of_players rfl rfl rfl
  | invited _ _ _ _ heffect => exact (heffect.replays hv hreplays).of_players rfl rfl rfl
  | answered _ _ _ _ _ _ heffect => exact hanswered (heffect.replays hv hreplays)
  | loginRefused => exact hreplays.of_players rfl rfl rfl
  | loginNoRoom _ _ _ _ _ hstore _ hposted =>
    rcases hstore with hstore | ⟨p, hstore⟩
    . exact hreplays.of_players (congrArg Store.players hstore)
        (congrArg Store.playerRegistry hstore) hposted
    . -- the player that is lost is not in the registry
      refine ⟨?_, ?_⟩
      . rw [World.nacked_store, hstore]
        intro player hmem rating hrating
        obtain ⟨p', hp', -⟩ := hv.player player hmem
        rw [Store.ratingOf, Heap.get?_push_of_get? hp', ← hp'] at hrating
        have hrating' := hreplays.ratings player hmem rating hrating
        exact hrating'.trans (congrArg (ratingsAfter env.expected · player) hposted.symm)
      . rw [World.nacked_store, hstore]
        intro result hresult
        exact hreplays.known result (hposted ▸ hresult)
  | loginTaken => exact hreplays.enlist hv _ (fun _ => rfl) rfl rfl
  | @loggedIn c name =>
    refine hreplays.enlist hv name (fun x => ?_) rfl rfl
    exact Store.ratingOf_modify _ (Store.login_players ..) (fun _ => rfl) x

namespace Server

theorem Steps.replays (h : Steps env σ e σ') (hok : σ.Ok)
    (hreplays : σ.world.Replays env.expected) : σ'.world.Replays env.expected := by
  cases h with
  | idle => exact hreplays
  | connects hconnects =>
    cases hconnects with
    | refused => exact hreplays
    | failed => exact hreplays.of_players rfl rfl rfl
    | connected => exact hreplays.of_players rfl rfl rfl
  | serves _ hserved => exact hserved.replays hok.steady.valid hreplays
  | departs _ hconnected hdeparts => exact hdeparts.replays (hok.serves hconnected) hreplays
  | calls _ _ heffect => exact heffect.replays hok.steady.valid hreplays

theorem replays_of_reach (h : Reachable env σ) : σ.Ok ∧ σ.world.Replays env.expected := by
  have hinitial : initialServer.world.Replays env.expected :=
    ⟨by simp [initialServer, initialWorld, initialStore], by simp [initialServer, initialWorld]⟩
  refine h.invariant (fun σ => σ.Ok ∧ σ.world.Replays env.expected) ⟨initial_ok, hinitial⟩ ?_
  rintro σ e σ' ⟨hok, hreplays⟩ - hstep
  have hsteps := steps_of_step hok hstep
  exact ⟨hsteps.ok hok, hsteps.replays hok hreplays⟩

end Server

/-! ## How far the ratings can get -/

theorem Store.Valid.ladder_sum {s : Store} {extra : ClientPtr → Nat} {table : PlayerPtr → Int}
    (hv : s.Valid extra) (htable : ∀ player ∈ s.playerRegistry.players, ∀ rating,
      s.ratingOf player = some rating → rating = table player)
    : s.ladder.sum = ∑ player ∈ s.playerRegistry.players.toFinset, table player := by
  rw [List.sum_toFinset _ hv.players_nodup]
  unfold Store.ladder
  congr 1
  refine List.map_congr_left fun player hmem => ?_
  obtain ⟨p, hp, -⟩ := hv.player player hmem
  have hrating : s.ratingOf player = some p.rating := by simp [Store.ratingOf, hp]
  rw [hrating, Option.getD_some]
  exact htable player hmem _ hrating

theorem Store.Valid.online_registered {s : Store} {extra : ClientPtr → Nat} (hv : s.Valid extra)
    (hmem : player ∈ s.onlinePlayers) : player ∈ s.playerRegistry.players := by
  obtain ⟨x, -, hx⟩ := List.mem_filterMap.mp hmem
  obtain ⟨c, hc, hplayer⟩ := Option.bind_eq_some_iff.mp hx
  exact (hv.client x c hc).known player hplayer

namespace Server

/--
The ratings of the registered players follow from the results posted. A rating is at most 32 points
a game away from where it began, and the sum of all ratings at most one. So it takes 79 games for the
list of the players to bring the server down. Of the expected score only its range matters.
-/
theorem ratings_accounted (hexpected : ∀ d, 0 ≤ env.expected d ∧ env.expected d ≤ 1)
    (h : Reachable env σ)
    : (∀ player ∈ σ.world.store.playerRegistry.players, ∀ rating,
        σ.world.store.ratingOf player = some rating →
        rating = ratingsAfter env.expected σ.world.trace.posted player
          ∧ |rating - playerInitialRating| ≤ 32 * gamesOf σ.world.trace.posted player)
        ∧ |σ.world.store.ladder.sum
            - playerInitialRating * σ.world.store.playerRegistry.players.length|
          ≤ σ.world.trace.posted.length
        ∧ (σ.world.trace.posted.length < 79 → ¬ σ.world.store.LongRating) := by
  obtain ⟨hok, hreplays⟩ := replays_of_reach h
  have hv := hok.steady.valid
  have hbound : ∀ player ∈ σ.world.store.playerRegistry.players, ∀ rating,
      σ.world.store.ratingOf player = some rating →
      |rating - playerInitialRating| ≤ 32 * gamesOf σ.world.trace.posted player := by
    intro player hmem rating hrating
    rw [hreplays.ratings player hmem rating hrating, ← countP_entry]
    exact (postedRatings_moderate hexpected).abs_replay_sub_le (by decide) _ _ player
  refine ⟨fun player hmem rating hrating => ⟨hreplays.ratings player hmem rating hrating,
    hbound player hmem rating hrating⟩, ?_, ?_⟩
  . have hknown : ∀ e ∈ σ.world.trace.posted.map PostedResult.entry,
        e.left ∈ σ.world.store.playerRegistry.players.toFinset
          ∧ e.right ∈ σ.world.store.playerRegistry.players.toFinset := by
      intro e he
      obtain ⟨result, hresult, rfl⟩ := List.mem_map.mp he
      obtain ⟨h1, h2⟩ := hreplays.known result hresult
      exact ⟨List.mem_toFinset.mpr h1, List.mem_toFinset.mpr h2⟩
    have hdrift := (postedRatings_drifts env.expected).abs_sum_replay_sub_le (by decide)
      (fun _ => playerInitialRating) hknown
    rw [hv.ladder_sum hreplays.ratings]
    rw [Finset.sum_const, List.toFinset_card_of_nodup hv.players_nodup, List.length_map, one_mul,
      nsmul_eq_mul, mul_comm] at hdrift
    exact hdrift
  . rintro hfew ⟨player, honline, p, hp, hlong⟩
    have hmem := hv.online_registered honline
    have hnear := hbound player hmem p.rating (by simp [Store.ratingOf, Option.mem_def.mp hp])
    have hgames : gamesOf σ.world.trace.posted player ≤ σ.world.trace.posted.length :=
      List.countP_le_length
    have hinitial : playerInitialRating = 1500 := rfl
    rw [abs_le] at hnear
    omega

/--
`A` has invited `B`, and resigns.
-/
theorem ratings_accounted_of_resigned
    : ∃ σ, Reachable calmEnv σ ∧ σ.world.store.ladder = [1484, 1516]
        ∧ (∀ player ∈ σ.world.store.playerRegistry.players, ∀ rating,
          σ.world.store.ratingOf player = some rating →
          rating = ratingsAfter calmEnv.expected σ.world.trace.posted player
            ∧ |rating - playerInitialRating| ≤ 32 * gamesOf σ.world.trace.posted player)
        ∧ |σ.world.store.ladder.sum
            - playerInitialRating * σ.world.store.playerRegistry.players.length|
          ≤ σ.world.trace.posted.length
        ∧ (σ.world.trace.posted.length < 79 → ¬ σ.world.store.LongRating) := by
  obtain ⟨σ, hreach, hladder⟩ := Machine.Reach.of_any_run (machine calmEnv) (fun _ _ => True)
    initialServer (invitedEvents ++ [.packet 1 (request .accept 0 .nullRole [] fits_nil),
      .packet 0 (request .resign 0 .nullRole [] fits_nil)])
    (fun σ => σ.world.store.ladder = [1484, 1516]) (by decide +kernel)
  exact ⟨σ, hreach, of_decide_eq_true hladder, ratings_accounted
    (fun _ => by norm_num [calmEnv]) hreach⟩

end Server

end Jeux
