import Mathlib.Data.Finset.Card
import Mathlib.Data.List.Induction
import Jeux.Concurrent.Players

/-!
Players persist: the player registry has one player for each name, and keeps the reference it has
taken when it made the player.
-/

namespace Jeux

open Program

/-! ## Names in the order in which they first occur -/

section Names

variable {names : List CString} {name : CString}

theorem eraseDups_concat_of_mem (h : name ∈ names)
    : (names ++ [name]).eraseDups = names.eraseDups := by
  rw [List.eraseDups_append]
  simp [List.removeAll, h]

theorem eraseDups_concat_of_not_mem (h : name ∉ names)
    : (names ++ [name]).eraseDups = names.eraseDups ++ [name] := by
  rw [List.eraseDups_append]
  simp [List.removeAll, h, List.eraseDups_cons]

theorem nodup_eraseDups (names : List CString) : names.eraseDups.Nodup := by
  induction names using List.reverseRecOn with
  | nil => exact List.nodup_nil
  | append_singleton names name ih =>
    by_cases hmem : name ∈ names
    . rw [eraseDups_concat_of_mem hmem]
      exact ih
    . rw [eraseDups_concat_of_not_mem hmem]
      apply List.nodup_append.mpr
      refine ⟨ih, List.nodup_singleton _, ?_⟩
      intro a ha b hb heq
      rw [List.mem_singleton] at hb
      rw [heq, hb, List.mem_eraseDups] at ha
      exact hmem ha

theorem getElem?_eraseDups_concat {i : Nat} {first : CString} (h : names.eraseDups[i]? = some first)
    : (names ++ [name]).eraseDups[i]? = some first := by
  by_cases hmem : name ∈ names
  . rw [eraseDups_concat_of_mem hmem, h]
  . rw [eraseDups_concat_of_not_mem hmem,
      List.getElem?_append_left (List.getElem?_eq_some_iff.mp h).1, h]

end Names

/-! ## What a thread holds and knows -/

def LoginState.owed (session : LoginState) : List PlayerPtr :=
  if session.loggedIn = .loggedIn then session.player.toList else []

def LoginState.Settled (session : LoginState) : Prop :=
  session = .fresh ∨ ∃ player, session = ⟨some player, .loggedIn⟩

def Purpose.owed (session : LoginState) : Purpose → List PlayerPtr
  | .users => session.owed
  | .login player => [player]

def PlayersPc.owed (session : LoginState) : PlayersPc → List PlayerPtr
  | .kept player | .clientLogin player | .setPlayer player | .setPlayerRef player => [player]
  | .collect purpose _ players | .collectRef purpose _ _ players => players ++ purpose.owed session
  | .compare player players _ => player :: players
  | .setLoggedIn player => [player, player]
  | .unrefNewPlayer player => player :: session.owed
  | .print players => players ++ session.owed
  | .idle | .postResult .. | .clientLogout => session.owed
  | _ => []

def Purpose.SessionOk (session : LoginState) : Purpose → Prop
  | .users => session.Settled
  | .login _ => session = .fresh

def PlayersPc.SessionOk (session : LoginState) : PlayersPc → Prop
  | .connecting | .register _ _ | .registerRef _ _ _ | .kept _ | .clientLogin _ | .compare _ _ _
  | .setPlayer _ => session = .fresh
  | .collect purpose _ _ | .collectRef purpose _ _ _ => purpose.SessionOk session
  | .setPlayerRef player | .setLoggedIn player => session = ⟨some player, .loggedOut⟩
  | .clientLogout | .setLoggedOut => ∃ player, session = ⟨some player, .loggedIn⟩
  | .idle | .print _ | .postResult _ _ _ | .unrefNewPlayer _ => session.Settled
  | .unregister | .finished => session.loggedIn = .loggedOut
  | .crashed => False

def PlayersPc.PlayersOk (s : PlayersState) : PlayersPc → Prop
  | .registerRef _ name player => s.calls.eraseDups[player]? = some name
  | .collectRef _ player _ _ => player < s.players.next
  | .postResult player1 player2 _ => player1 < s.players.next ∧ player2 < s.players.next
  | _ => True

structure ThreadOk (s : PlayersState) (i : Nat) (t : PlayersThread) : Prop where
  mine : t.mine.Perm (t.pc.owed (s.sessions i))
  session : t.pc.SessionOk (s.sessions i)
  players : t.pc.PlayersOk s

/-! ## What holds of the players -/

def PlayersState.lastPosted (s : PlayersState) (player : PlayerPtr) : Int :=
  ((s.posted.reverse.find? (·.1 = player)).map (·.2)).getD playerInitialRating

structure PlayersOk (s : PlayersState) : Prop where
  linked : s.list.Linked
  list : s.list.toList = List.range s.players.next
  length : s.length = s.players.next
  names : s.calls.eraseDups.length = s.players.next
  live : ∀ player < s.players.next, ∃ p, s.players.get? player = some p
    ∧ s.calls.eraseDups[player]? = some p.name ∧ p.rating = s.lastPosted player
  returned : ∀ name player, (name, player) ∈ s.returned → s.calls.eraseDups[player]? = some name
  sessions : ∀ i player, (s.sessions i).player = some player → player < s.players.next
  posted : ∀ player rating, (player, rating) ∈ s.posted → player < s.players.next

def Counted (players : Heap Player) (pcs : List PlayersThread) : Prop :=
  ∀ player p, players.get? player = some p →
    p.refCount = 1 + total (·.mine.count player) pcs

structure Persistent (T : Threads PlayersState PlayersThread) : Prop where
  memory : PlayersOk T.shared
  counted : Counted T.shared.players T.pcs
  each : Each ThreadOk T
  known : Each (fun s _ t => ∀ player ∈ t.mine, player < s.players.next) T
  fresh : ∀ i, T.pcs.length ≤ i → T.shared.sessions i = .fresh

variable {T : Threads PlayersState PlayersThread} {s s' : PlayersState} {t t' : PlayersThread}
  {i : Nat} {player : PlayerPtr} {pc : PlayersPc} {name : CString} {expected : Int → Rat}
  {a : PlayersStep}

theorem PlayersPc.PlayersOk.mono (h : pc.PlayersOk s) (hnext : s.players.next ≤ s'.players.next)
    (hcalls : ∀ (k : Nat) first, s.calls.eraseDups[k]? = some first →
      s'.calls.eraseDups[k]? = some first)
    : pc.PlayersOk s' := by
  cases pc with
  | registerRef login name player => exact hcalls player name h
  | collectRef purpose player clients players => exact Nat.lt_of_lt_of_le h hnext
  | postResult player1 player2 result =>
    exact ⟨Nat.lt_of_lt_of_le h.1 hnext, Nat.lt_of_lt_of_le h.2 hnext⟩
  | _ => trivial

/--
What a thread knows survives what others do: no client but their own changes, and players and names
are only added.
-/
theorem Persistent.step (h : Persistent T) (hp : T.pcs[i]? = some t) (hmemory : PlayersOk s')
    (hcounted : Counted s'.players (T.pcs.set i t')) (hself : ThreadOk s' i t')
    (hmine : ∀ player ∈ t'.mine, player ∈ t.mine ∨ player < s'.players.next)
    (hsessions : ∀ j, j ≠ i → s'.sessions j = T.shared.sessions j)
    (hnext : T.shared.players.next ≤ s'.players.next)
    (hcalls : ∀ (k : Nat) first, T.shared.calls.eraseDups[k]? = some first →
      s'.calls.eraseDups[k]? = some first)
    : Persistent { shared := s', pcs := T.pcs.set i t' } where
  memory := hmemory
  counted := hcounted
  each := by
    apply h.each.step hself
    intro j q hne _ hq
    have hsame := hsessions j hne
    exact ⟨hsame ▸ hq.mine, hsame ▸ hq.session, hq.players.mono hnext hcalls⟩
  known := by
    apply h.known.step
    . intro player hmem
      rcases hmine player hmem with hmem | hlt
      . exact Nat.lt_of_lt_of_le (h.known i t hp player hmem) hnext
      . exact hlt
    . intro j q _ _ hq player hmem
      exact Nat.lt_of_lt_of_le (hq player hmem) hnext
  fresh := by
    intro j hj
    have hlt := (List.getElem?_eq_some_iff.mp hp).1
    rw [List.length_set] at hj
    rw [hsessions j (by omega)]
    exact h.fresh j hj

/-! ## Steps that take no reference -/

theorem Counted.goto {players : Heap Player} {pcs : List PlayersThread} (h : Counted players pcs)
    (hp : pcs[i]? = some t) : Counted players (pcs.set i (t.goto pc)) := by
  intro player p hplayer
  have htotal := total_set (fun t : PlayersThread => t.mine.count player) (t.goto pc) hp
  have hcount := h player p hplayer
  have hmine : (t.goto pc).mine = t.mine := rfl
  rw [hmine] at htotal
  omega

theorem Persistent.goto (h : Persistent T) (hp : T.pcs[i]? = some t)
    (hself : ThreadOk T.shared i (t.goto pc))
    : Persistent { T with pcs := T.pcs.set i (t.goto pc) } :=
  h.step hp h.memory (h.counted.goto hp) hself (fun _ hmem => .inl hmem) (fun _ _ => rfl)
    (Nat.le_refl _) fun _ _ hk => hk

theorem Persistent.registered (h : Persistent T) (registered : List Nat)
    : Persistent { T with shared := { T.shared with registered } } where
  memory := ⟨h.memory.linked, h.memory.list, h.memory.length, h.memory.names, h.memory.live,
    h.memory.returned, h.memory.sessions, h.memory.posted⟩
  counted := h.counted
  each := by
    intro j q hq
    obtain ⟨hmine, hsession, hplayers⟩ := h.each j q hq
    exact ⟨hmine, hsession, hplayers.mono (Nat.le_refl _) fun _ _ hk => hk⟩
  known := h.known
  fresh := h.fresh

theorem Persistent.returned (h : Persistent T)
    (hname : T.shared.calls.eraseDups[player]? = some name)
    : Persistent
        { T with shared := { T.shared with returned := T.shared.returned ++ [(name, player)] } } where
  memory := by
    refine ⟨h.memory.linked, h.memory.list, h.memory.length, h.memory.names, h.memory.live, ?_,
      h.memory.sessions, h.memory.posted⟩
    intro name' player' hmem
    rw [List.mem_append, List.mem_singleton] at hmem
    rcases hmem with hmem | heq
    . exact h.memory.returned name' player' hmem
    . cases heq
      exact hname
  counted := h.counted
  each := by
    intro j q hq
    obtain ⟨hmine, hsession, hplayers⟩ := h.each j q hq
    exact ⟨hmine, hsession, hplayers.mono (Nat.le_refl _) fun _ _ hk => hk⟩
  known := h.known
  fresh := h.fresh

@[simp]
theorem sessions_setSession (s : PlayersState) (i : Nat) (session : LoginState)
    : (s.setSession i session).sessions i = session := if_pos rfl

theorem Persistent.setSession (h : Persistent T) (hp : T.pcs[i]? = some t) {session : LoginState}
    (hplayer : ∀ player, session.player = some player → player < T.shared.players.next)
    (hself : ThreadOk (T.shared.setSession i session) i (t.goto pc))
    : Persistent
        { shared := T.shared.setSession i session, pcs := T.pcs.set i (t.goto pc) } := by
  have hmemory : PlayersOk (T.shared.setSession i session) := by
    refine ⟨h.memory.linked, h.memory.list, h.memory.length, h.memory.names, h.memory.live,
      h.memory.returned, ?_, h.memory.posted⟩
    intro j player hj
    by_cases heq : j = i
    . subst heq
      rw [sessions_setSession] at hj
      exact hplayer player hj
    . have hsame : (T.shared.setSession i session).sessions j = T.shared.sessions j := if_neg heq
      rw [hsame] at hj
      exact h.memory.sessions j player hj
  apply h.step hp hmemory (h.counted.goto hp) hself
  . exact fun _ hmem => .inl hmem
  . intro j hne
    exact if_neg hne
  . exact Nat.le_refl _
  . exact fun _ _ hk => hk

/-! ## References -/

theorem PlayersOk.modify (h : PlayersOk s) {f : Player → Player}
    (hf : ∀ p, (f p).name = p.name ∧ (f p).rating = p.rating)
    : PlayersOk { s with players := s.players.modify player f } where
  linked := h.linked
  list := by rw [Heap.next_modify]; exact h.list
  length := by rw [Heap.next_modify]; exact h.length
  names := by rw [Heap.next_modify]; exact h.names
  live := by
    intro other hlt
    rw [Heap.next_modify] at hlt
    obtain ⟨p, hp, hname, hrating⟩ := h.live other hlt
    rw [Heap.get?_modify, hp]
    split
    . exact ⟨f p, rfl, (hf p).1 ▸ hname, (hf p).2.trans hrating⟩
    . exact ⟨p, rfl, hname, hrating⟩
  returned := h.returned
  sessions := by
    intro j other hj
    rw [Heap.next_modify]
    exact h.sessions j other hj
  posted := by
    intro other rating hmem
    rw [Heap.next_modify]
    exact h.posted other rating hmem

theorem Persistent.ref (h : Persistent T) (player : PlayerPtr) (pc : PlayersPc)
    (hp : T.pcs[i]? = some t)
    (hplayer : player < T.shared.players.next)
    (hself : ThreadOk T.shared i ⟨pc, player :: t.mine⟩)
    : Persistent
        { shared := (T.shared.ref t player pc).1
          pcs := T.pcs.set i (T.shared.ref t player pc).2 } := by
  obtain ⟨p, hlive, -⟩ := h.memory.live player hplayer
  unfold PlayersState.ref
  rw [hlive]
  dsimp only
  apply h.step hp (h.memory.modify (f := Player.addRef) fun _ => ⟨rfl, rfl⟩)
  . intro other q hq
    dsimp only at hq
    have htotal := total_set (fun t : PlayersThread => t.mine.count other) ⟨pc, player :: t.mine⟩ hp
    dsimp only at htotal
    rw [List.count_cons] at htotal
    rw [Heap.get?_modify_eq_some] at hq
    obtain ⟨v, hv, heq⟩ := hq
    have hcount := h.counted other v hv
    by_cases hsame : other = player
    . subst hsame
      rw [if_pos rfl] at heq
      rw [if_pos (beq_self_eq_true other)] at htotal
      rw [← heq]
      dsimp only [Player.addRef]
      omega
    . rw [if_neg hsame] at heq
      rw [if_neg (by simpa using Ne.symm hsame)] at htotal
      rw [← heq]
      omega
  . refine ⟨hself.mine, hself.session, hself.players.mono ?_ fun _ _ hk => hk⟩
    rw [Heap.next_modify]
  . intro other hmem
    rw [Heap.next_modify]
    rcases List.mem_cons.mp hmem with rfl | hmem
    . exact .inr hplayer
    . exact .inl hmem
  . intro j _
    rfl
  . rw [Heap.next_modify]
  . exact fun _ _ hk => hk

/--
A reference that a thread holds is never the last one, for the registry has one.
-/
theorem Persistent.unref (h : Persistent T) (player : PlayerPtr) (pc : PlayersPc)
    (hp : T.pcs[i]? = some t)
    (hmine : t.mine.Perm (player :: pc.owed (T.shared.sessions i)))
    (hsession : pc.SessionOk (T.shared.sessions i)) (hplayers : pc.PlayersOk T.shared)
    : Persistent
        { shared := (T.shared.unref t player pc).1
          pcs := T.pcs.set i (T.shared.unref t player pc).2 } := by
  have hmem : player ∈ t.mine := hmine.mem_iff.mpr (List.mem_cons_self ..)
  have hplayer := h.known i t hp player hmem
  have hrest : (t.mine.erase player).Perm (pc.owed (T.shared.sessions i)) := by
    have := hmine.erase player
    rw [List.erase_cons_head] at this
    exact this
  obtain ⟨p, hlive, -⟩ := h.memory.live player hplayer
  have hheld : 0 < t.mine.count player := List.count_pos_iff.mpr hmem
  have hle := weight_le_total (fun t : PlayersThread => t.mine.count player) hp
  have hcount := h.counted player p hlive
  unfold PlayersState.unref
  rw [hlive]
  dsimp only
  rw [if_neg (by omega)]
  apply h.step hp (h.memory.modify (f := Player.dropRef) fun _ => ⟨rfl, rfl⟩)
  . intro other q hq
    dsimp only at hq
    have htotal := total_set (fun t : PlayersThread => t.mine.count other)
      ⟨pc, t.mine.erase player⟩ hp
    dsimp only at htotal
    rw [Heap.get?_modify_eq_some] at hq
    obtain ⟨v, hv, heq⟩ := hq
    have hcount := h.counted other v hv
    by_cases hsame : other = player
    . subst hsame
      rw [if_pos rfl] at heq
      rw [List.count_erase_self] at htotal
      rw [← heq]
      dsimp only [Player.dropRef]
      omega
    . rw [if_neg hsame] at heq
      rw [List.count_erase_of_ne hsame] at htotal
      rw [← heq]
      omega
  . refine ⟨hrest, hsession, hplayers.mono ?_ fun _ _ hk => hk⟩
    rw [Heap.next_modify]
  . exact fun _ hmem => .inl (List.mem_of_mem_erase hmem)
  . intro j _
    rfl
  . rw [Heap.next_modify]
  . exact fun _ _ hk => hk

/-! ## Registration -/

theorem PlayersOk.live_list (h : PlayersOk s) : s.Live := by
  intro player hmem
  rw [h.list, List.mem_range] at hmem
  obtain ⟨p, hp, -⟩ := h.live player hmem
  exact ⟨p, hp⟩

theorem PlayersOk.lastPosted_next (h : PlayersOk s)
    : s.lastPosted s.players.next = playerInitialRating := by
  have hnone : s.posted.reverse.find? (·.1 = s.players.next) = none := by
    rw [List.find?_eq_none]
    rintro ⟨player, rating⟩ hmem heq
    have hlt := h.posted player rating (List.mem_reverse.mp hmem)
    rw [decide_eq_true_eq] at heq
    exact Nat.ne_of_lt hlt heq
  unfold PlayersState.lastPosted
  rw [hnone]
  rfl

theorem PlayersOk.named_iff (h : PlayersOk s) : s.playerNamed name = none ↔ name ∉ s.calls := by
  constructor
  . intro hnone hmem
    rw [← List.mem_eraseDups] at hmem
    obtain ⟨player, hplayer⟩ := List.getElem?_of_mem hmem
    have hlt : player < s.players.next := h.names ▸ (List.getElem?_eq_some_iff.mp hplayer).1
    obtain ⟨p, hp, hname, -⟩ := h.live player hlt
    rw [hplayer, Option.some.injEq] at hname
    have hlist : player ∈ s.list.toList := by
      rw [h.list, List.mem_range]
      exact hlt
    exact playerNamed_none hnone hlist hp hname.symm
  . intro hmem
    cases hplayer : s.playerNamed name with
    | none => rfl
    | some player =>
      obtain ⟨hlist, p, hp, hname⟩ := playerNamed_some hplayer
      rw [h.list, List.mem_range] at hlist
      obtain ⟨q, hq, hfirst, -⟩ := h.live player hlist
      rw [hp, Option.some.injEq] at hq
      rw [← hq, hname] at hfirst
      exact absurd (List.mem_eraseDups.mp (List.mem_of_getElem? hfirst)) hmem

theorem PlayersOk.called (h : PlayersOk s) (hname : name ∈ s.calls)
    : PlayersOk { s with calls := s.calls ++ [name] } := by
  have hsame := eraseDups_concat_of_mem hname
  refine ⟨h.linked, h.list, h.length, ?_, ?_, ?_, h.sessions, h.posted⟩
  all_goals dsimp only
  all_goals rw [hsame]
  . exact h.names
  . exact h.live
  . exact h.returned

theorem PlayersOk.enlist (h : PlayersOk s) (hname : name ∉ s.calls)
    : PlayersOk (({ s with calls := s.calls ++ [name] }).enlist name s.list.last?) := by
  have hnew := eraseDups_concat_of_not_mem hname
  have hnames := h.names
  unfold PlayersState.enlist
  constructor
  . exact h.linked.insertAfter
  . dsimp only
    rw [LinkedList.toList_insertAfter, h.list, Heap.next_push, List.range_succ]
  . dsimp only
    rw [h.length, Heap.next_push]
  . dsimp only
    rw [hnew, List.length_append, hnames, Heap.next_push]
    rfl
  . dsimp only
    intro player hlt
    rw [Heap.next_push] at hlt
    rw [hnew, Heap.get?_push]
    split
    . next heq =>
      refine ⟨_, rfl, ?_, ?_⟩
      . rw [List.getElem?_append_right (by omega), heq, hnames, Nat.sub_self]
        rfl
      . rw [heq]
        exact h.lastPosted_next.symm
    . next hne =>
      obtain ⟨p, hp, hfirst, hrating⟩ := h.live player (by omega)
      refine ⟨p, hp, ?_, hrating⟩
      rw [List.getElem?_append_left (by omega)]
      exact hfirst
  . intro name' player hmem
    exact getElem?_eraseDups_concat (h.returned name' player hmem)
  . intro j player hj
    rw [Heap.next_push]
    exact Nat.lt_succ_of_lt (h.sessions j player hj)
  . intro player rating hmem
    rw [Heap.next_push]
    exact Nat.lt_succ_of_lt (h.posted player rating hmem)

theorem Persistent.counted_push (h : Persistent T) {p : Player} (hcount : p.refCount = 1)
    : Counted (T.shared.players.push p) T.pcs := by
  intro player q hq
  rw [Heap.get?_push] at hq
  split at hq
  . next heq =>
    have hzero : total (·.mine.count player) T.pcs = 0 := by
      rw [total_eq_zero]
      intro t hmem
      obtain ⟨j, hj⟩ := List.getElem?_of_mem hmem
      rw [List.count_eq_zero]
      intro hheld
      exact Nat.ne_of_lt (h.known j t hj player hheld) heq
    rw [← Option.some.inj hq, hzero, hcount]
    rfl
  . exact h.counted player q hq

theorem Persistent.register {login : Bool} (h : Persistent T) (hp : T.pcs[i]? = some t)
    (hpc : t.pc = .register login name)
    : Persistent
        { shared := (T.shared.register t login name).1
          pcs := T.pcs.set i (T.shared.register t login name).2 } := by
  obtain ⟨hmine, hsession, -⟩ := h.each i t hp
  rw [hpc] at hmine hsession
  rw [register_eq t login name h.memory.linked h.memory.live_list]
  cases hnamed : T.shared.playerNamed name with
  | some player =>
    have hcalled : name ∈ T.shared.calls := by
      by_contra hmem
      rw [h.memory.named_iff.mpr hmem] at hnamed
      simp at hnamed
    obtain ⟨hlist, p, hlive, hname⟩ := playerNamed_some hnamed
    rw [h.memory.list, List.mem_range] at hlist
    obtain ⟨q, hq, hfirst, -⟩ := h.memory.live player hlist
    rw [hlive, Option.some.injEq] at hq
    rw [← hq, hname] at hfirst
    apply h.step hp (h.memory.called hcalled) (h.counted.goto hp)
    . exact ⟨hmine, hsession, getElem?_eraseDups_concat hfirst⟩
    . exact fun _ hmem => .inl hmem
    . exact fun _ _ => rfl
    . exact Nat.le_refl _
    . exact fun _ _ hk => getElem?_eraseDups_concat hk
  | none =>
    have hnew := h.memory.named_iff.mp hnamed
    have hnext : T.shared.players.next ≤ (T.shared.players.push
        { name, refCount := 1, rating := playerInitialRating }).next := by
      rw [Heap.next_push]
      exact Nat.le_succ _
    have hcounted : Counted (T.shared.players.push
        { name, refCount := 1, rating := playerInitialRating }) T.pcs := h.counted_push rfl
    apply h.step hp (h.memory.enlist hnew) (hcounted.goto hp)
    . refine ⟨hmine, hsession, ?_⟩
      have hlength := h.memory.names
      unfold PlayersPc.PlayersOk PlayersState.enlist
      dsimp only [PlayersThread.goto]
      rw [eraseDups_concat_of_not_mem hnew, List.getElem?_append_right (by omega), hlength,
        Nat.sub_self]
      rfl
    . exact fun _ hmem => .inl hmem
    . exact fun _ _ => rfl
    . exact hnext
    . exact fun _ _ hk => getElem?_eraseDups_concat hk

/-! ## Results -/

def PlayersState.storeRating (s : PlayersState) (player : PlayerPtr) (rating : Int) : PlayersState :=
  { s with
    players := s.players.modify player fun p => { p with rating }
    posted := s.posted ++ [(player, rating)] }

theorem lastPosted_storeRating (s : PlayersState) (player : PlayerPtr) (rating : Int)
    (other : PlayerPtr)
    : (s.storeRating player rating).lastPosted other
        =
      if player = other then rating else s.lastPosted other := by
  unfold PlayersState.lastPosted PlayersState.storeRating
  dsimp only
  rw [List.reverse_append, List.reverse_singleton, List.singleton_append, List.find?_cons]
  by_cases heq : player = other
  . simp [heq]
  . simp [heq]

theorem PlayersOk.storeRating (h : PlayersOk s) (hplayer : player < s.players.next) (rating : Int)
    : PlayersOk (s.storeRating player rating) := by
  have hnext : (s.storeRating player rating).players.next = s.players.next := Heap.next_modify
  refine ⟨h.linked, ?_, ?_, ?_, ?_, h.returned, ?_, ?_⟩
  all_goals rw [hnext]
  . exact h.list
  . exact h.length
  . exact h.names
  . intro other hlt
    obtain ⟨p, hp, hname, hrating⟩ := h.live other hlt
    rw [lastPosted_storeRating]
    unfold PlayersState.storeRating
    dsimp only
    rw [Heap.get?_modify, hp]
    by_cases heq : other = player
    . rw [if_pos heq, if_pos heq.symm]
      exact ⟨_, rfl, hname, rfl⟩
    . rw [if_neg heq, if_neg (Ne.symm heq)]
      exact ⟨p, rfl, hname, hrating⟩
  . exact h.sessions
  . intro other stored hmem
    unfold PlayersState.storeRating at hmem
    dsimp only at hmem
    rw [List.mem_append, List.mem_singleton] at hmem
    rcases hmem with hmem | heq
    . exact h.posted other stored hmem
    . cases heq
      exact hplayer

theorem Counted.storeRating {pcs : List PlayersThread} (h : Counted s.players pcs)
    (player : PlayerPtr) (rating : Int) : Counted (s.storeRating player rating).players pcs := by
  intro other q hq
  obtain ⟨v, hv, heq⟩ := Heap.get?_modify_eq_some.mp hq
  rw [← h other v hv, ← heq]
  split <;> rfl

theorem postResult_eq (t : PlayersThread) (expected : Int → Rat) {player1 player2 : PlayerPtr}
    (result : GameRole) {p1 p2 : Player} (hp1 : s.players.get? player1 = some p1)
    (hp2 : s.players.get? player2 = some p2)
    : s.postResult t expected player1 player2 result
        =
      if player1 = player2 then
        (s, t.goto .idle)
      else
        ((s.storeRating player1 (postedRatings expected p1.rating p2.rating result).1).storeRating
            player2 (postedRatings expected p1.rating p2.rating result).2,
          t.goto .idle) := by
  unfold PlayersState.postResult
  split
  . rfl
  . rw [hp1, hp2]
    unfold PlayersState.storeRating
    dsimp only
    rw [List.append_assoc]
    rfl

theorem Persistent.postResult (h : Persistent T) (expected : Int → Rat)
    (hp : T.pcs[i]? = some t)
    {player1 player2 : PlayerPtr} {result : GameRole}
    (hpc : t.pc = .postResult player1 player2 result)
    : Persistent
        { shared := (T.shared.postResult t expected player1 player2 result).1
          pcs := T.pcs.set i (T.shared.postResult t expected player1 player2 result).2 } := by
  obtain ⟨hmine, hsession, hplayers⟩ := h.each i t hp
  rw [hpc] at hmine hsession hplayers
  obtain ⟨hlt1, hlt2⟩ := hplayers
  obtain ⟨p1, hp1, -⟩ := h.memory.live player1 hlt1
  obtain ⟨p2, hp2, -⟩ := h.memory.live player2 hlt2
  have hidle : ThreadOk T.shared i (t.goto .idle) := ⟨hmine, hsession, trivial⟩
  rw [postResult_eq t expected result hp1 hp2]
  split
  . exact h.goto hp hidle
  . have hmemory := h.memory.storeRating hlt1
      (postedRatings expected p1.rating p2.rating result).1
    have hlt2' : player2
        < (T.shared.storeRating player1
            (postedRatings expected p1.rating p2.rating result).1).players.next := by
      rw [PlayersState.storeRating, Heap.next_modify]
      exact hlt2
    have hmemory' := hmemory.storeRating hlt2'
      (postedRatings expected p1.rating p2.rating result).2
    have hcounted := (h.counted.storeRating player1
      (postedRatings expected p1.rating p2.rating result).1).storeRating player2
      (postedRatings expected p1.rating p2.rating result).2
    apply h.step hp hmemory' (hcounted.goto hp)
    . exact ⟨hidle.mine, hidle.session, trivial⟩
    . exact fun _ hmem => .inl hmem
    . exact fun _ _ => rfl
    . unfold PlayersState.storeRating
      rw [Heap.next_modify, Heap.next_modify]
    . exact fun _ _ hk => hk

/-! ## Every step -/

abbrev afterStep (T : Threads PlayersState PlayersThread) (i : Nat)
    (next : PlayersState × PlayersThread) : Threads PlayersState PlayersThread where
  shared := next.1
  pcs := T.pcs.set i next.2

theorem LoginState.Settled.fresh {session : LoginState} (h : session.Settled)
    (hnone : session.player = none) : session = .fresh := by
  rcases h with hfresh | ⟨player, hplayer⟩
  . exact hfresh
  . simp [hplayer] at hnone

theorem Persistent.connects (h : Persistent T) (hp : T.pcs[i]? = some t) (hpc : t.pc = .connecting)
    : Persistent (afterStep T i
        ({ T.shared with registered := T.shared.registered ++ [i] }, t.goto .idle)) := by
  obtain ⟨hmine, hsession, -⟩ := h.each i t hp
  rw [hpc] at hmine hsession
  apply (h.registered (T.shared.registered ++ [i])).goto hp
  refine ⟨?_, .inl hsession, trivial⟩
  rw [hsession]
  exact hmine

theorem Persistent.namesPlayer (h : Persistent T) (hp : T.pcs[i]? = some t) (hpc : t.pc = .idle)
    (hnone : (T.shared.sessions i).player = none) (name : CString)
    : Persistent (afterStep T i (T.shared, t.goto (.register true name))) := by
  obtain ⟨hmine, hsession, -⟩ := h.each i t hp
  rw [hpc] at hmine hsession
  have hfresh := LoginState.Settled.fresh hsession hnone
  rw [hfresh] at hmine
  exact h.goto hp ⟨hmine, hfresh, trivial⟩

theorem Persistent.endsGame (h : Persistent T) (hp : T.pcs[i]? = some t) (hpc : t.pc = .idle)
    {opponent : Nat} {player other : PlayerPtr}
    (hplayer : (T.shared.sessions i).player = some player)
    (hother : (T.shared.sessions opponent).player = some other) (first : Bool) (result : GameRole)
    : Persistent (afterStep T i (T.shared, t.goto
        (if first then .postResult player other result else .postResult other player result))) := by
  obtain ⟨hmine, hsession, -⟩ := h.each i t hp
  rw [hpc] at hmine hsession
  have hlt := h.memory.sessions i player hplayer
  have hlt' := h.memory.sessions opponent other hother
  cases first with
  | true => exact h.goto hp ⟨hmine, hsession, hlt, hlt'⟩
  | false => exact h.goto hp ⟨hmine, hsession, hlt', hlt⟩

theorem Persistent.leaves (h : Persistent T) (hp : T.pcs[i]? = some t) (hpc : t.pc = .idle)
    : Persistent (afterStep T i (T.shared, t.goto
        (if (T.shared.sessions i).loggedIn = .loggedIn then .clientLogout else .unregister))) := by
  obtain ⟨hmine, hsession, -⟩ := h.each i t hp
  rw [hpc] at hmine hsession
  rcases hsession with hfresh | ⟨player, hplayer⟩
  . rw [if_neg (by simp [hfresh, LoginState.fresh])]
    rw [hfresh] at hmine
    exact h.goto hp ⟨hmine, congrArg LoginState.loggedIn hfresh, trivial⟩
  . rw [if_pos (congrArg LoginState.loggedIn hplayer)]
    exact h.goto hp ⟨hmine, ⟨player, hplayer⟩, trivial⟩

theorem Persistent.registersRef {login : Bool} (h : Persistent T) (hp : T.pcs[i]? = some t)
    (hpc : t.pc = .registerRef login name player)
    : Persistent (afterStep T i
        ({ T.shared with returned := T.shared.returned ++ [(name, player)] }.ref t player
          (if login then .clientLogin player else .kept player))) := by
  obtain ⟨hmine, hsession, hplayers⟩ := h.each i t hp
  rw [hpc] at hmine hsession hplayers
  have hlt : player < T.shared.players.next :=
    h.memory.names ▸ (List.getElem?_eq_some_iff.mp hplayers).1
  apply (h.returned hplayers).ref player (if login then .clientLogin player else .kept player) hp hlt
  cases login with
  | true => exact ⟨hmine.cons player, hsession, trivial⟩
  | false => exact ⟨hmine.cons player, hsession, trivial⟩

/-! ### `creg_all_players` -/

theorem Persistent.collects {purpose : Purpose} {client : Nat} {clients : List Nat}
    {players : List PlayerPtr} (h : Persistent T) (hp : T.pcs[i]? = some t)
    (hpc : t.pc = .collect purpose (client :: clients) players)
    (hplayer : (T.shared.sessions client).player = some player)
    : Persistent (afterStep T i
        (T.shared, t.goto (.collectRef purpose player clients players))) := by
  obtain ⟨hmine, hsession, -⟩ := h.each i t hp
  rw [hpc] at hmine hsession
  exact h.goto hp ⟨hmine, hsession, h.memory.sessions client player hplayer⟩

theorem Persistent.collectsRef {purpose : Purpose} {clients : List Nat} {players : List PlayerPtr}
    (h : Persistent T) (hp : T.pcs[i]? = some t)
    (hpc : t.pc = .collectRef purpose player clients players)
    : Persistent (afterStep T i
        (T.shared.ref t player (.collect purpose clients (players ++ [player])))) := by
  obtain ⟨hmine, hsession, hplayers⟩ := h.each i t hp
  rw [hpc] at hmine hsession hplayers
  apply h.ref player _ hp hplayers
  refine ⟨(hmine.cons player).trans ?_, hsession, trivial⟩
  dsimp only [PlayersPc.owed]
  rw [List.append_assoc]
  exact List.perm_middle.symm

/-! ### `client_login` -/

theorem Persistent.compares {other : PlayerPtr} {players : List PlayerPtr} {loggedIn : Bool}
    (h : Persistent T) (hp : T.pcs[i]? = some t)
    (hpc : t.pc = .compare player (other :: players) loggedIn)
    : Persistent (afterStep T i (T.shared.compareName t player other players loggedIn)) := by
  obtain ⟨hmine, hsession, -⟩ := h.each i t hp
  rw [hpc] at hmine hsession
  have hplayer := h.known i t hp player (hmine.mem_iff.mpr (List.mem_cons_self ..))
  have hother := h.known i t hp other
    (hmine.mem_iff.mpr (List.mem_cons_of_mem _ (List.mem_cons_self ..)))
  obtain ⟨p, hlive, -⟩ := h.memory.live player hplayer
  obtain ⟨q, hlive', -⟩ := h.memory.live other hother
  have hcompare : T.shared.compareName t player other players loggedIn
      = T.shared.unref t other (.compare player players (loggedIn || q.name == p.name)) := by
    simp only [PlayersState.compareName, PlayersState.named, hlive, hlive', Option.map_some]
  rw [hcompare]
  exact h.unref other _ hp (hmine.trans (.swap ..)) hsession trivial

theorem Persistent.compared {loggedIn : Bool} (h : Persistent T) (hp : T.pcs[i]? = some t)
    (hpc : t.pc = .compare player [] loggedIn)
    : Persistent (afterStep T i (T.shared, t.goto
        (if loggedIn then .unrefNewPlayer player else .setPlayer player))) := by
  obtain ⟨hmine, hsession, -⟩ := h.each i t hp
  rw [hpc] at hmine hsession
  cases loggedIn with
  | true =>
    refine h.goto hp ⟨?_, .inl hsession, trivial⟩
    rw [hsession]
    exact hmine
  | false => exact h.goto hp ⟨hmine, hsession, trivial⟩

theorem Persistent.setsPlayer (h : Persistent T) (hp : T.pcs[i]? = some t)
    (hpc : t.pc = .setPlayer player)
    : Persistent (afterStep T i
        (T.shared.setSession i { T.shared.sessions i with player := some player },
          t.goto (.setPlayerRef player))) := by
  obtain ⟨hmine, hsession, -⟩ := h.each i t hp
  rw [hpc] at hmine hsession
  have hlt := h.known i t hp player (hmine.mem_iff.mpr (List.mem_cons_self ..))
  apply h.setSession hp
  . intro player' heq
    rw [← Option.some.inj heq]
    exact hlt
  . refine ⟨hmine, ?_, trivial⟩
    rw [sessions_setSession]
    dsimp only [PlayersPc.SessionOk] at hsession
    rw [hsession]
    rfl

theorem Persistent.setsPlayerRef (h : Persistent T) (hp : T.pcs[i]? = some t)
    (hpc : t.pc = .setPlayerRef player)
    : Persistent (afterStep T i (T.shared.ref t player (.setLoggedIn player))) := by
  obtain ⟨hmine, hsession, -⟩ := h.each i t hp
  rw [hpc] at hmine hsession
  have hlt := h.known i t hp player (hmine.mem_iff.mpr (List.mem_cons_self ..))
  exact h.ref player (.setLoggedIn player) hp hlt ⟨hmine.cons player, hsession, trivial⟩

theorem Persistent.setsLoggedIn (h : Persistent T) (hp : T.pcs[i]? = some t)
    (hpc : t.pc = .setLoggedIn player)
    : Persistent (afterStep T i
        (T.shared.setSession i { T.shared.sessions i with loggedIn := .loggedIn },
          t.goto (.unrefNewPlayer player))) := by
  obtain ⟨hmine, hsession, -⟩ := h.each i t hp
  rw [hpc] at hmine hsession
  have hlt := h.known i t hp player (hmine.mem_iff.mpr (List.mem_cons_self ..))
  dsimp only [PlayersPc.SessionOk] at hsession
  rw [hsession]
  apply h.setSession hp
  . intro player' heq
    rw [← Option.some.inj heq]
    exact hlt
  . refine ⟨?_, ?_, trivial⟩
    . dsimp only [PlayersThread.goto, PlayersPc.owed]
      rw [sessions_setSession]
      exact hmine
    . rw [sessions_setSession]
      exact .inr ⟨player, rfl⟩

/-! ### The end of a connection -/

theorem Persistent.logsOut (h : Persistent T) (hp : T.pcs[i]? = some t) (hpc : t.pc = .clientLogout)
    (hplayer : (T.shared.sessions i).player = some player)
    : Persistent (afterStep T i (T.shared.unref t player .setLoggedOut)) := by
  obtain ⟨hmine, hsession, -⟩ := h.each i t hp
  rw [hpc] at hmine hsession
  obtain ⟨player', hin⟩ := hsession
  rw [hin] at hplayer hmine
  obtain rfl := Option.some.inj hplayer
  exact h.unref player' .setLoggedOut hp hmine ⟨player', hin⟩ trivial

theorem Persistent.setsLoggedOut (h : Persistent T) (hp : T.pcs[i]? = some t)
    (hpc : t.pc = .setLoggedOut)
    : Persistent (afterStep T i
        (T.shared.setSession i { T.shared.sessions i with loggedIn := .loggedOut },
          t.goto .unregister)) := by
  obtain ⟨hmine, -, -⟩ := h.each i t hp
  rw [hpc] at hmine
  apply h.setSession hp
  . exact fun player' heq => h.memory.sessions i player' heq
  . refine ⟨hmine, ?_, trivial⟩
    rw [sessions_setSession]
    rfl

/-! ### All of them -/

theorem Persistent.acts (h : Persistent T) (hp : T.pcs[i]? = some t)
    (hstep : (playersProgram expected).step i T.shared t a = some (s', t'))
    : Persistent { shared := s', pcs := T.pcs.set i t' } := by
  suffices hnext : ∀ next, (playersProgram expected).step i T.shared t a = some next →
      Persistent (afterStep T i next) from hnext (s', t') hstep
  intro next hstep
  obtain ⟨pc, mine⟩ := t
  obtain ⟨hmine, hsession, hplayers⟩ := h.each i _ hp
  dsimp only at hmine hsession hplayers
  dsimp only [playersProgram] at hstep
  split at hstep
  . -- `connecting`
    obtain rfl := Option.some.inj hstep
    exact h.connects hp rfl
  . -- `idle`, a LOGIN packet
    split at hstep
    . obtain rfl := Option.some.inj hstep
      exact h.goto hp ⟨hmine, hsession, trivial⟩
    . next hfree =>
      obtain rfl := Option.some.inj hstep
      rw [Bool.or_eq_true, not_or, Option.not_isSome_iff_eq_none] at hfree
      exact h.namesPlayer hp rfl hfree.1 _
  . -- `idle`, a USERS packet
    obtain rfl := Option.some.inj hstep
    exact h.goto hp ⟨hmine, hsession, trivial⟩
  . -- `idle`, the result of a game
    next opponent first result _ =>
    split at hstep
    . next player other hplayer hother =>
      obtain rfl := Option.some.inj hstep
      exact h.endsGame hp rfl hplayer hother first result
    . obtain rfl := Option.some.inj hstep
      exact h.goto hp ⟨hmine, hsession, trivial⟩
  . -- `idle`, the end of the service loop
    have hleaves := h.leaves hp rfl
    split at hstep
    . next hloggedIn =>
      obtain rfl := Option.some.inj hstep
      rw [if_pos hloggedIn] at hleaves
      exact hleaves
    . next hloggedOut =>
      obtain rfl := Option.some.inj hstep
      rw [if_neg hloggedOut] at hleaves
      exact hleaves
  . -- `register`
    obtain rfl := Option.some.inj hstep
    exact h.register hp rfl
  . -- `registerRef`
    obtain rfl := Option.some.inj hstep
    exact h.registersRef hp rfl
  . -- `kept`
    obtain rfl := Option.some.inj hstep
    exact h.unref _ .finished hp hmine (congrArg LoginState.loggedIn hsession) trivial
  . -- `clientLogin`
    split at hstep
    . obtain rfl := Option.some.inj hstep
      exact h.goto hp ⟨hmine, hsession, trivial⟩
    . next hloggedIn => exact absurd (congrArg LoginState.loggedIn hsession) hloggedIn
  . -- `collect`
    split at hstep
    . obtain rfl := Option.some.inj hstep
      exact h.goto hp ⟨hmine, hsession, trivial⟩
    . next player hplayer =>
      obtain rfl := Option.some.inj hstep
      exact h.collects hp rfl hplayer
  . -- `collectRef`
    obtain rfl := Option.some.inj hstep
    exact h.collectsRef hp rfl
  . -- `collect` at the end, for `process_users`
    obtain rfl := Option.some.inj hstep
    exact h.goto hp ⟨hmine, hsession, trivial⟩
  . -- `collect` at the end, for `client_login`
    obtain rfl := Option.some.inj hstep
    exact h.goto hp ⟨hmine.trans (List.perm_append_singleton _ _), hsession, trivial⟩
  . -- `compare`
    obtain rfl := Option.some.inj hstep
    exact h.compares hp rfl
  . -- `compare` at the end
    obtain rfl := Option.some.inj hstep
    exact h.compared hp rfl
  . -- `setPlayer`
    obtain rfl := Option.some.inj hstep
    exact h.setsPlayer hp rfl
  . -- `setPlayerRef`
    obtain rfl := Option.some.inj hstep
    exact h.setsPlayerRef hp rfl
  . -- `setLoggedIn`
    obtain rfl := Option.some.inj hstep
    exact h.setsLoggedIn hp rfl
  . -- `unrefNewPlayer`
    obtain rfl := Option.some.inj hstep
    exact h.unref _ .idle hp hmine hsession trivial
  . -- `print`
    obtain rfl := Option.some.inj hstep
    exact h.unref _ (.print _) hp hmine hsession trivial
  . -- `print` at the end
    obtain rfl := Option.some.inj hstep
    exact h.goto hp ⟨hmine, hsession, trivial⟩
  . -- `postResult`
    obtain rfl := Option.some.inj hstep
    exact h.postResult expected hp rfl
  . -- `clientLogout`
    split at hstep
    . next hnone =>
      obtain ⟨player, hplayer⟩ := hsession
      simp [hplayer] at hnone
    . next player hplayer =>
      obtain rfl := Option.some.inj hstep
      exact h.logsOut hp rfl hplayer
  . -- `setLoggedOut`
    obtain rfl := Option.some.inj hstep
    exact h.setsLoggedOut hp rfl
  . -- `unregister`
    obtain rfl := Option.some.inj hstep
    exact (h.registered (T.shared.registered.erase i)).goto hp ⟨hmine, hsession, trivial⟩
  . simp at hstep

/-! ## Every run -/

def PlayersState.names (s : PlayersState) : List (Option CString) :=
  s.list.toList.map fun player => (s.players.get? player).map (·.name)

/--
One player for each name that has come up, in that order, and each of them still there with the
rating that has been stored last.
-/
structure PlayersState.OneForEach (s : PlayersState) : Prop where
  linked : s.list.Linked
  names : s.names = s.calls.eraseDups.map some
  nodup : s.names.Nodup
  length : s.length = s.calls.toFinset.card
  same : ∀ name player name' player', (name, player) ∈ s.returned → (name', player') ∈ s.returned →
    (player = player' ↔ name = name')
  returned : ∀ name player, (name, player) ∈ s.returned →
    ∃ p, s.players.get? player = some p ∧ p.name = name
  live : ∀ player < s.players.next, ∃ p, s.players.get? player = some p
    ∧ p.rating = s.lastPosted player

theorem PlayersOk.names_eq (h : PlayersOk s) : s.names = s.calls.eraseDups.map some := by
  unfold PlayersState.names
  rw [h.list]
  apply List.ext_getElem?
  intro k
  rw [List.getElem?_map, List.getElem?_map]
  by_cases hlt : k < s.players.next
  . obtain ⟨p, hp, hname, -⟩ := h.live k hlt
    rw [List.getElem?_range hlt, hname, Option.map_some, hp]
    rfl
  . have hnames := h.names
    rw [List.getElem?_eq_none (by simpa using hlt), List.getElem?_eq_none (by omega)]
    rfl

theorem PlayersOk.oneForEach (h : PlayersOk s) : s.OneForEach where
  linked := h.linked
  names := h.names_eq
  nodup := by
    rw [h.names_eq]
    exact (nodup_eraseDups s.calls).map (Option.some_injective _)
  length := by
    have hset : s.calls.toFinset = s.calls.eraseDups.toFinset := by
      ext name
      rw [List.mem_toFinset, List.mem_toFinset, List.mem_eraseDups]
    rw [hset, List.toFinset_card_of_nodup (nodup_eraseDups s.calls), h.names, h.length]
  same := by
    intro name player name' player' hmem hmem'
    have hname := h.returned name player hmem
    have hname' := h.returned name' player' hmem'
    constructor
    . rintro rfl
      exact Option.some.inj (hname.symm.trans hname')
    . rintro rfl
      have hlt := (List.getElem?_eq_some_iff.mp hname).1
      exact (List.getElem?_inj hlt (nodup_eraseDups s.calls)).mp (hname.trans hname'.symm)
  returned := by
    intro name player hmem
    have hname := h.returned name player hmem
    obtain ⟨p, hp, hfirst, -⟩ := h.live player (h.names ▸ (List.getElem?_eq_some_iff.mp hname).1)
    exact ⟨p, hp, Option.some.inj (hfirst.symm.trans hname)⟩
  live := by
    intro player hlt
    obtain ⟨p, hp, -, hrating⟩ := h.live player hlt
    exact ⟨p, hp, hrating⟩

theorem Persistent.call (h : Persistent T)
    (hstarts : (playersProgram expected).starts T.shared t = true)
    : Persistent { T with pcs := T.pcs ++ [t] } := by
  have hfresh := h.fresh T.pcs.length (Nat.le_refl _)
  have hself : t.mine = [] ∧ ThreadOk T.shared T.pcs.length t := by
    dsimp only [playersProgram] at hstarts
    split at hstarts
    . exact ⟨rfl, .refl _, hfresh, trivial⟩
    . exact ⟨rfl, .refl _, hfresh, trivial⟩
    . simp at hstarts
  refine ⟨h.memory, ?_, h.each.call hself.2, h.known.call ?_, ?_⟩
  . intro player p hp
    have hcount := h.counted player p hp
    rw [total_concat, hself.1, List.count_nil]
    exact hcount
  . rw [hself.1]
    simp
  . intro j hj
    apply h.fresh
    rw [List.length_append] at hj
    omega

theorem persistent_initial : Persistent ⟨initialPlayers, []⟩ where
  memory := by
    refine ⟨LinkedList.linked_empty, rfl, rfl, rfl, ?_, ?_, ?_, ?_⟩ <;>
      simp [initialPlayers, LoginState.fresh]
  counted := by
    intro player p hp
    simp [initialPlayers] at hp
  each := by simp [Each]
  known := by simp [Each]
  fresh := fun _ _ => rfl

/--
Whoever logs in under a name, whenever and however often, gets the one player of that name, and no
thread ever uses a player that has been freed.
-/
theorem players_persist
    (h : (playersProgram expected).machine.Reach (fun _ _ => True) ⟨initialPlayers, []⟩ T)
    : T.shared.OneForEach ∧ ∀ t ∈ T.pcs, t.pc ≠ .crashed := by
  have hok : Persistent T := by
    apply reach_induction Persistent h persistent_initial
    . intro T t hinv _ hstarts
      exact hinv.call hstarts
    . intro T i a t s t' hinv _ hp hstep
      exact hinv.acts hp hstep
  refine ⟨hok.memory.oneForEach, ?_⟩
  intro t hmem hcrashed
  obtain ⟨i, hi⟩ := List.getElem?_of_mem hmem
  have hsession := (hok.each i t hi).session
  rw [hcrashed] at hsession
  exact hsession

def comesBack : List (Program.Event PlayersThread PlayersStep) :=
  [.call ⟨.connecting, []⟩, .step 0 .go, .step 0 (.login [97])] ++ List.replicate 10 (.step 0 .go)
    ++ [.call ⟨.connecting, []⟩, .step 1 .go, .step 1 (.login [98])]
    ++ List.replicate 13 (.step 1 .go)
    ++ [.step 0 (.result 1 true .firstPlayerRole), .step 0 .go, .step 0 .leave, .step 0 .go,
      .step 0 .go, .step 0 .go, .call ⟨.connecting, []⟩, .step 2 .go, .step 2 (.login [97]),
      .step 2 .go, .step 2 .go]

theorem players_persist_of_comesBack : ∃ T : Threads PlayersState PlayersThread,
    (playersProgram fun _ => 1 / 2).machine.Reach (fun _ _ => True) ⟨initialPlayers, []⟩ T
      ∧ T.shared.returned = [([97], 0), ([98], 1), ([97], 0)]
      ∧ T.shared.lastPosted 0 = 1516
      ∧ ∃ p, T.shared.players.get? 0 = some p ∧ p.rating = 1516 := by
  obtain ⟨T, hreach, hT⟩ := Machine.Reach.of_any_run (playersProgram fun _ => 1 / 2).machine
    (fun _ _ => True) ⟨initialPlayers, []⟩ comesBack
    (fun T => T.shared.returned = [([97], 0), ([98], 1), ([97], 0)]
      ∧ T.shared.lastPosted 0 = 1516 ∧ 0 < T.shared.players.next)
    (by decide +kernel)
  obtain ⟨hreturned, hposted, hnext⟩ := of_decide_eq_true hT
  obtain ⟨p, hp, hrating⟩ := (players_persist hreach).1.live 0 hnext
  exact ⟨T, hreach, hreturned, hposted, p, hp, hrating.trans hposted⟩

end Jeux
