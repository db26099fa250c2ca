import Jeux.Lemmas.UsersText
import Jeux.Service.Invariant

/-!
What a USERS request tells the client that sends it: the ACK of `process_users`, as far as its
header says that it goes, and what can be read off it.
-/

namespace Jeux

open ServerM

structure Username (name : CString) : Prop where
  nonempty : name ≠ []
  terminated : (0 : Byte) ∉ name
  length : name.length ≤ 65535

/--
A name that does not break a line.
-/
structure LineName (name : CString) : Prop extends Username name where
  unbroken : (10 : Byte) ∉ name

structure Listable (names : CString → Prop) (pairs : List (CString × Int)) : Prop where
  names : ∀ p ∈ pairs, names p.1
  ratings : ∀ p ∈ pairs, IsInt p.2
  nodup : (pairs.map (·.1)).Nodup
  length : pairs.length ≤ maxClients

def Store.pairOf (s : Store) (client : ClientPtr) : Option (CString × Int) :=
  (s.clients.get? client).bind fun c =>
    if c.loggedIn = .loggedIn then
      (c.player.bind s.players.get?).map fun p => (p.name, p.rating)
    else
      none

/--
The names and ratings of the players that are logged in, in the order of the registry.
-/
def Store.loggedInPairs (s : Store) : List (CString × Int) :=
  s.clientRegistry.members.filterMap s.pairOf

/--
A registry between two calls: the registered clients that have a player are logged in.
-/
structure Store.Listed (s : Store) (names : CString → Prop) : Prop where
  valid : ∃ extra, s.Valid extra
  session : ∀ client c, 0 < s.registered client → s.clients.get? client = some c →
    c.player ≠ none → c.loggedIn = .loggedIn
  names : ∀ p ∈ s.loggedInPairs, names p.1

/--
The ACK of `process_users` is sent, and what the receiver takes for its payload are the lines of all
players that are logged in.
-/
def UsersAcked (w : World) (client : ClientPtr) : Prop :=
  ∀ env : Env, env.allocOk w.trace.allocs = true → ∃ w' hdr data written,
    (processUsers none client).run env w = .ok (0, w')
      ∧ w'.trace.sent = w.trace.sent ++ [⟨client, hdr, some data, written⟩]
      ∧ hdr.type = PacketType.ack.toByte
      ∧ data.take hdr.size.toNat = listing w.store.loggedInPairs

/--
The list that a USERS request asks for arrives complete: every line fits into its buffer, all lines
reach the receiver, and there are no other players they could be about.
-/
structure UsersComplete (names : CString → Prop) (w : World) (client : ClientPtr) : Prop where
  fits : ∀ p ∈ w.store.loggedInPairs, (usersLine p.1 p.2).length + 1 ≤ usersLineRoom p.1
  acked : UsersAcked w client
  recovered : ∀ pairs, Listable names pairs → listing pairs = listing w.store.loggedInPairs →
    pairs = w.store.loggedInPairs

/--
The ratings are of the usual size, and the lines are not too long for a packet.
-/
structure FitsPacket (pairs : List (CString × Int)) : Prop where
  ratings : ∀ p ∈ pairs, -999 ≤ p.2 ∧ p.2 ≤ 9999
  length : (pairs.map fun p => p.1.length + (decimal p.2).length + 2).sum ≤ 65535

/--
There is one player at most, whose name cannot be split.
-/
structure TellsApart (pairs : List (CString × Int)) : Prop where
  single : pairs.length ≤ 1
  unsplit : ∀ p ∈ pairs, ¬ Splits p.1

variable {env : Env} {w : World} {s : Store} {client : ClientPtr} {c : Client}
  {names : CString → Prop} {pairs : List (CString × Int)}

namespace Store

theorem Listed.pairs_eq (h : s.Listed names)
    : s.loggedInPairs
        =
      s.onlinePlayers.filterMap fun player =>
        (s.players.get? player).map fun p => (p.name, p.rating) := by
  have ⟨extra, hv⟩ := h.valid
  unfold loggedInPairs onlinePlayers playersIn
  rw [List.filterMap_filterMap]
  apply List.filterMap_congr
  intro client hmem
  have hregistered : 0 < s.registered client := List.count_pos_iff.mpr hmem
  have ⟨c, hc⟩ := hv.held_live client (by omega)
  unfold pairOf playerOf
  rw [hc, Option.bind_some]
  cases hplayer : c.player with
  | none =>
    split <;> simp [hplayer]
  | some player =>
    have hin := h.session client c hregistered hc (by simp [hplayer])
    simp [hin, hplayer]

theorem Listed.usersText_eq (h : s.Listed names)
    : usersText s.players s.onlinePlayers = listing s.loggedInPairs := by
  rw [h.pairs_eq]
  generalize s.onlinePlayers = players
  induction players with
  | nil => rfl
  | cons player players ih =>
    unfold usersText at ih ⊢
    rw [List.flatMap_cons, ih, List.filterMap_cons]
    cases s.players.get? player <;> rfl

theorem Listed.linesFit_iff (h : s.Listed names)
    : linesFit s.players s.onlinePlayers = true
        ↔
      ∀ p ∈ s.loggedInPairs, (usersLine p.1 p.2).length + 1 ≤ usersLineRoom p.1 := by
  rw [h.pairs_eq]
  unfold linesFit
  rw [List.all_eq_true]
  constructor
  . intro hall q hq
    obtain ⟨player, hmem, hpair⟩ := List.mem_filterMap.mp hq
    obtain ⟨p, hp, rfl⟩ := Option.map_eq_some_iff.mp hpair
    simpa [hp] using hall player hmem
  . intro hall player hmem
    cases hp : s.players.get? player with
    | none => rfl
    | some p =>
      have := hall (p.name, p.rating) (List.mem_filterMap.mpr ⟨player, hmem, by simp [hp]⟩)
      simpa using this

end Store

theorem take_size (text : CString)
    : text.take (UInt16.ofNat text.length).toNat = text ↔ text.length ≤ 65535 := by
  rw [List.take_eq_self_iff, UInt16.toNat_ofNat']
  omega

theorem Store.Listed.users_run (h : w.store.Listed names)
    (hc : w.store.clients.get? client = some c) (halloc : env.allocOk w.trace.allocs = true)
    (hfits : ∀ p ∈ w.store.loggedInPairs, (usersLine p.1 p.2).length + 1 ≤ usersLineRoom p.1)
    : (processUsers none client).run env w
        =
      .ok (0, World.acked { w with trace.allocs := w.trace.allocs + 1 } env client 0
        (some (listing w.store.loggedInPairs))) := by
  have ⟨extra, hv⟩ := h.valid
  rw [processUsers_run env hv hc, if_pos halloc, if_pos (h.linesFit_iff.mpr hfits), h.usersText_eq]

theorem acked_iff (h : w.store.Listed names) (hc : w.store.clients.get? client = some c)
    : (∀ p ∈ w.store.loggedInPairs, (usersLine p.1 p.2).length + 1 ≤ usersLineRoom p.1)
          ∧ UsersAcked w client
        ↔
      FitsPacket w.store.loggedInPairs := by
  constructor
  . rintro ⟨hfits, hacked⟩
    constructor
    . intro p hp
      exact usersLine_fits.mp (hfits p hp)
    . obtain ⟨w', hdr, data, written, hok, hsent, -, htake⟩ := hacked calmEnv rfl
      rw [h.users_run hc rfl hfits, Except.ok.injEq, Prod.mk.injEq] at hok
      obtain ⟨-, rfl⟩ := hok
      simp only [World.acked, Trace.send, List.append_cancel_left_eq, List.cons.injEq,
        SentPacket.mk.injEq, Option.some.injEq, true_and, and_true] at hsent
      obtain ⟨rfl, rfl, -⟩ := hsent
      rw [← length_listing]
      exact (take_size _).mp htake
  . intro hfit
    have hfits : ∀ p ∈ w.store.loggedInPairs, (usersLine p.1 p.2).length + 1 ≤ usersLineRoom p.1 :=
      fun p hp => usersLine_fits.mpr (hfit.ratings p hp)
    refine ⟨hfits, fun env halloc => ⟨_, _, _, _, h.users_run hc halloc hfits, rfl, rfl, ?_⟩⟩
    apply (take_size _).mpr
    rw [Option.getD_some, length_listing]
    exact hfit.length

/-! ## Who else it could be about -/

theorem Username.mono {name part : CString} (h : Username name) (hne : part ≠ [])
    (hsub : part.Sublist name) : Username part where
  nonempty := hne
  terminated hmem := h.terminated (hsub.subset hmem)
  length := hsub.length_le.trans h.length

theorem exists_merged (hnames : ∀ p ∈ pairs, Username p.1) (hint : ∀ p ∈ pairs, IsInt p.2)
    (hmany : 2 ≤ pairs.length) (hlength : (listing pairs).length ≤ 65535)
    : ∃ p, Listable Username [p] ∧ listing [p] = listing pairs := by
  rcases pairs.eq_nil_or_concat' with rfl | ⟨init, ⟨name, rating⟩, rfl⟩
  . simp at hmany
  . have hname := hnames (name, rating) (by simp)
    have hrating := hint (name, rating) (by simp)
    refine ⟨(listing init ++ name, rating), ⟨?_, by simpa using hrating, by simp,
      by simp [maxClients]⟩, ?_⟩
    . intro p hp
      obtain rfl := List.mem_singleton.mp hp
      constructor
      . simp [hname.nonempty]
      . rw [List.mem_append, not_or]
        refine ⟨not_mem_listing (by decide) fun q hq => ?_, hname.terminated⟩
        exact (hnames q (List.mem_append_left _ hq)).terminated
      . rw [listing_concat, length_usersLine] at hlength
        dsimp only
        omega
    . rw [listing_concat, listing_cons, listing_nil, List.append_nil]

theorem exists_split {p : CString × Int} (hname : Username p.1) (hint : IsInt p.2)
    (hsplits : Splits p.1)
    : ∃ q q', Listable Username [q, q'] ∧ listing [q, q'] = listing [p] := by
  obtain ⟨name, rating⟩ := p
  obtain ⟨x, number, y, hnumber, hx, hy, hne, rfl⟩ := hsplits
  refine ⟨(x, number), (y, rating), ⟨?_, by simpa using ⟨hnumber, hint⟩, by simpa using hne,
    by simp [maxClients]⟩, ?_⟩
  . intro q hq
    rw [List.mem_cons, List.mem_singleton] at hq
    rcases hq with rfl | rfl
    . apply hname.mono hx
      simp only [usersLine, List.append_assoc]
      exact List.sublist_append_left _ _
    . exact hname.mono hy (List.sublist_append_right _ _)
  . simp only [listing_cons, listing_nil, List.append_nil, usersLine_append]

theorem FitsPacket.isInt (h : FitsPacket pairs) : ∀ p ∈ pairs, IsInt p.2 := by
  intro p hp
  have := h.ratings p hp
  unfold IsInt
  omega

theorem recovered_iff (hnames : ∀ p ∈ pairs, Username p.1) (hint : ∀ p ∈ pairs, IsInt p.2)
    (hlength : (listing pairs).length ≤ 65535)
    : (∀ pairs', Listable Username pairs' → listing pairs' = listing pairs → pairs' = pairs)
        ↔
      TellsApart pairs := by
  constructor
  . intro hrecovered
    have hsingle : pairs.length ≤ 1 := by
      apply Nat.le_of_not_lt
      intro hmany
      obtain ⟨p, hlistable, hsame⟩ := exists_merged hnames hint hmany hlength
      rw [← hrecovered _ hlistable hsame] at hmany
      simp at hmany
    refine ⟨hsingle, fun p hp hsplits => ?_⟩
    have hpairs : pairs = [p] := by
      match pairs, hsingle, hp with
      | [q], _, hp => rw [List.mem_singleton.mp hp]
    subst hpairs
    obtain ⟨q, q', hlistable, hsame⟩ := exists_split (hnames p hp) (hint p hp) hsplits
    simpa using hrecovered _ hlistable hsame
  . intro happart pairs' hlistable hsame
    match pairs, happart with
    | [], _ =>
      cases pairs' with
      | nil => rfl
      | cons q pairs' =>
        rw [listing_cons, listing_nil] at hsame
        exact absurd (List.append_eq_nil_iff.mp hsame).1 usersLine_ne_nil
    | [(name, rating)], happart =>
      apply eq_singleton_of_not_splits (happart.unsplit _ (List.mem_singleton_self _))
        (fun q hq => (hlistable.names q hq).nonempty) hlistable.ratings hlistable.nodup
      rw [hsame, listing_cons, listing_nil, List.append_nil]
    | _ :: _ :: _, happart => exact absurd happart.single (by simp)

/-! ## The list -/

theorem Server.Reachable.listed {σ : Server} (h : Server.Reachable env σ)
    (hnames : ∀ p ∈ σ.world.store.loggedInPairs, names p.1) : σ.world.store.Listed names :=
  have hok := Server.ok_of_reach Server.initial_ok h
  ⟨⟨_, hok.steady.valid⟩, hok.steady.session, hnames⟩

instance (name : CString) : Decidable (LineName name) :=
  decidable_of_iff (name ≠ [] ∧ (0 : Byte) ∉ name ∧ name.length ≤ 65535 ∧ (10 : Byte) ∉ name)
    ⟨fun h => ⟨⟨h.1, h.2.1, h.2.2.1⟩, h.2.2.2⟩,
      fun h => ⟨h.nonempty, h.terminated, h.length, h.unbroken⟩⟩

/--
The list of users is complete if and only if the ratings have their four places, the lines fit into
a packet, and there is at most one player, whose name cannot be split. If no name had a newline in
it, the number of players would not matter.
-/
theorem usersComplete_iff (w : World) (client : ClientPtr) (c : Client)
    (hc : w.store.clients.get? client = some c)
    : (w.store.Listed Username →
        (UsersComplete Username w client
          ↔
        FitsPacket w.store.loggedInPairs ∧ TellsApart w.store.loggedInPairs))
      ∧ (w.store.Listed LineName →
        (UsersComplete LineName w client ↔ FitsPacket w.store.loggedInPairs)) := by
  constructor
  . intro h
    constructor
    . rintro ⟨hfits, hacked, hrecovered⟩
      have hpacket := (acked_iff h hc).mp ⟨hfits, hacked⟩
      refine ⟨hpacket, (recovered_iff h.names hpacket.isInt ?_).mp hrecovered⟩
      rw [length_listing]
      exact hpacket.length
    . rintro ⟨hpacket, happart⟩
      have ⟨hfits, hacked⟩ := (acked_iff h hc).mpr hpacket
      refine ⟨hfits, hacked, (recovered_iff h.names hpacket.isInt ?_).mpr happart⟩
      rw [length_listing]
      exact hpacket.length
  . intro h
    constructor
    . rintro ⟨hfits, hacked, -⟩
      exact (acked_iff h hc).mp ⟨hfits, hacked⟩
    . intro hpacket
      have ⟨hfits, hacked⟩ := (acked_iff h hc).mpr hpacket
      refine ⟨hfits, hacked, fun pairs hlistable hsame => ?_⟩
      exact listing_inj (fun p hp => (hlistable.names p hp).unbroken)
        (fun p hp => (h.names p hp).unbroken) hsame

/--
`A` is alone.
-/
theorem usersComplete_of_single
    : ∃ σ, Server.Reachable calmEnv σ ∧ σ.world.store.loggedInPairs = [([65], 1500)]
      ∧ UsersComplete Username σ.world 0 := by
  obtain ⟨σ, hreach, hcheck⟩ := Machine.Reach.of_any_run (Server.machine calmEnv) (fun _ _ => True)
    initialServer [.connect 4, .packet 0 (request .login 0 .nullRole [65] fits_A)]
    (fun σ => decide (σ.world.store.loggedInPairs = [([65], 1500)]
      ∧ (σ.world.store.clients.get? 0).isSome)) (by decide +kernel)
  obtain ⟨hpairs, hlive⟩ := of_decide_eq_true hcheck
  obtain ⟨c, hc⟩ := Option.isSome_iff_exists.mp hlive
  have hlisted : σ.world.store.Listed Username := Server.Reachable.listed hreach (by
    rw [hpairs]
    intro p hp
    obtain rfl := List.mem_singleton.mp hp
    exact ⟨by decide, by decide, by decide⟩)
  refine ⟨σ, hreach, hpairs, ((usersComplete_iff σ.world 0 c hc).1 hlisted).mpr ?_⟩
  rw [hpairs]
  refine ⟨⟨by decide, by decide⟩, by decide, fun p hp hsplits => ?_⟩
  obtain rfl := List.mem_singleton.mp hp
  obtain ⟨x, number, y, -, hx, hy, -, heq⟩ := hsplits
  have hlen := congrArg List.length heq
  rw [List.length_append, length_usersLine, List.length_singleton] at hlen
  omega

/--
With `A` and `B` the list could be about a player whose name is the first line and `B`. And a rating
of five digits does not fit into the buffer.
-/
theorem not_usersComplete
    : (∃ σ, Server.Reachable calmEnv σ ∧ σ.world.store.Listed LineName
        ∧ ¬ UsersComplete Username σ.world 0)
      ∧ usersLineRoom [65] < (usersLine [65] 10000).length + 1 := by
  refine ⟨?_, by decide⟩
  obtain ⟨σ, hreach, hcheck⟩ := Machine.Reach.of_any_run (Server.machine calmEnv) (fun _ _ => True)
    initialServer twoPlayers
    (fun σ => decide (σ.world.store.loggedInPairs = [([65], 1500), ([66], 1500)]))
    (by decide +kernel)
  have hpairs := of_decide_eq_true hcheck
  refine ⟨σ, hreach, ?_, fun hcomplete => ?_⟩
  . apply Server.Reachable.listed hreach
    rw [hpairs]
    decide
  . have hmerged := hcomplete.recovered [([65, 9, 49, 53, 48, 48, 10, 66], 1500)]
      ⟨by
        intro p hp
        obtain rfl := List.mem_singleton.mp hp
        exact ⟨by decide, by decide, by decide⟩, by simp [IsInt], by simp, by simp [maxClients]⟩
      (by rw [hpairs]; decide)
    rw [hpairs] at hmerged
    exact absurd hmerged (by decide)

end Jeux
