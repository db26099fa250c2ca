import Jeux.Lemmas.Counts
import Jeux.Service.Apart

/-!
No two of the registered players have the same name: `preg_register` finds the player of a name, if
there is one, again.
-/

namespace Jeux

variable {env : Env} {w w' : World} {s s' s'' : Store} {client x : ClientPtr} {player : PlayerPtr}
  {σ σ' : Server} {e : Event} {name user : CString} {p : Player}

namespace Store

def NamesApart (s : Store) : Prop :=
  ∀ player ∈ s.playerRegistry.players, ∀ p, s.players.get? player = some p →
    s.playerNamed p.name = some player

structure SameNames (s s' : Store) : Prop where
  playerRegistry : s'.playerRegistry = s.playerRegistry
  name : ∀ player ∈ s.playerRegistry.players,
    (s'.players.get? player).map (·.name) = (s.players.get? player).map (·.name)

theorem SameNames.of_players (hplayers : s'.players = s.players)
    (hregistry : s'.playerRegistry = s.playerRegistry) : s.SameNames s' :=
  ⟨hregistry, fun _ _ => by rw [hplayers]⟩

theorem SameNames.trans (h : s.SameNames s') (h' : s'.SameNames s'') : s.SameNames s'' where
  playerRegistry := h'.playerRegistry.trans h.playerRegistry
  name := fun player hmem =>
    (h'.name player (h.playerRegistry ▸ hmem)).trans (h.name player hmem)

theorem SameNames.modify {f : Player → Player} (player : PlayerPtr)
    (hplayers : s'.players = s.players.modify player f) (hf : ∀ p, (f p).name = p.name)
    (hregistry : s'.playerRegistry = s.playerRegistry) : s.SameNames s' where
  playerRegistry := hregistry
  name := fun x _ => by rw [hplayers, Heap.map_get?_modify hf]

theorem sameNames_login (s : Store) (client : ClientPtr) (player : PlayerPtr)
    : s.SameNames (s.login client player) := .modify player (login_players ..) (fun _ => rfl) rfl

theorem sameNames_leave (s : Store) (client : ClientPtr) (player : PlayerPtr)
    : s.SameNames (s.leave client player) := .modify player (leave_players ..) (fun _ => rfl) rfl

theorem sameNames_unregister (s : Store) (client : ClientPtr) (i : Nat)
    : s.SameNames (s.unregister client i) := by
  obtain ⟨hplayers, hregistry, -⟩ := unregister_players s client i
  exact .of_players hplayers hregistry

theorem KeepsSessions.sameNames (h : s.KeepsSessions s') : s.SameNames s' :=
  ⟨h.playerRegistry, fun player _ => h.name player⟩

theorem SameNames.playerNamed (h : s.SameNames s') (name : CString)
    : s'.playerNamed name = s.playerNamed name := by
  unfold Store.playerNamed
  rw [h.playerRegistry]
  refine List.find?_congr fun player hmem => ?_
  rw [h.name player hmem]

theorem NamesApart.same (h : s.NamesApart) (hsame : s.SameNames s') : s'.NamesApart := by
  intro player hmem p' hp'
  rw [hsame.playerRegistry] at hmem
  have hname := hsame.name player hmem
  rw [hp', Option.map_some] at hname
  obtain ⟨p, hp, hpname⟩ := Option.map_eq_some_iff.mp hname.symm
  rw [hsame.playerNamed, ← hpname]
  exact h player hmem p hp

theorem name_of_playerNamed (h : s.playerNamed name = some player)
    : player ∈ s.playerRegistry.players ∧ (s.players.get? player).map (·.name) = some name :=
  ⟨List.mem_of_find?_eq_some h, by simpa using List.find?_some h⟩

theorem Valid.playerNamed_enlist {extra : ClientPtr → Nat} (hv : s.Valid extra)
    (name user : CString)
    : (s.enlist name).playerNamed user
        =
      if user = name then some (s.playerFor name) else s.playerNamed user := by
  unfold Store.enlist playerFor
  cases hnamed : s.playerNamed name with
  | some player =>
    dsimp only [Option.getD_some]
    split
    . next heq => rw [heq, hnamed]
    . rfl
  | none =>
    have hold : s.playerRegistry.players.find? (fun player =>
        ((s.addPlayer name).players.get? player).map (·.name) = some user)
          = s.playerNamed user := by
      refine List.find?_congr fun player hmem => ?_
      obtain ⟨p, hp⟩ := hv.registry_live player hmem
      have hp' : (s.addPlayer name).players.get? player = some p := Heap.get?_push_of_get? hp
      rw [hp, hp']
    have hnew : ((s.addPlayer name).players.get? s.players.next).map (·.name) = some name :=
      congrArg _ Heap.get?_push_next
    have hsplit : (s.addPlayer name).playerNamed user
        = (s.playerNamed user).or ([s.players.next].find? fun player =>
          ((s.addPlayer name).players.get? player).map (·.name) = some user) := by
      rw [← hold, ← List.find?_append]
      rfl
    dsimp only
    rw [hsplit, Option.getD_none, List.find?_singleton, hnew]
    by_cases heq : user = name
    . rw [heq, hnamed]
      simp
    . simp [heq, Ne.symm heq]

theorem NamesApart.enlist {extra : ClientPtr → Nat} (h : s.NamesApart) (hv : s.Valid extra)
    (name : CString) : (s.enlist name).NamesApart := by
  intro player hmem p hp
  rw [hv.playerNamed_enlist]
  unfold Store.enlist at hmem hp
  unfold playerFor
  cases hnamed : s.playerNamed name with
  | some player' =>
    rw [hnamed] at hmem hp
    have hfound := h player hmem p hp
    split
    . next heq => rw [← hnamed, ← heq, hfound, Option.getD_some]
    . exact hfound
  | none =>
    rw [hnamed] at hmem hp
    unfold addPlayer at hmem hp
    dsimp only at hmem hp
    rw [Heap.get?_push] at hp
    split at hp
    . next heq =>
      obtain rfl := Option.some.inj hp
      rw [if_pos rfl, heq, Option.getD_none]
    . next hne =>
      have hold : player ∈ s.playerRegistry.players :=
        (List.mem_append.mp hmem).resolve_right fun h => hne (List.mem_singleton.mp h)
      have hfound := h player hold p hp
      rw [if_neg, hfound]
      intro heq
      rw [heq, hnamed] at hfound
      exact absurd hfound (by simp)

end Store

namespace Server

theorem Steps.namesApart (h : Steps env σ e σ') (hok : σ.Ok)
    (hapart : σ.world.store.NamesApart) : σ'.world.store.NamesApart := by
  have hv := hok.steady.valid
  cases h with
  | idle => exact hapart
  | connects hconnects =>
    cases hconnects with
    | refused => exact hapart
    | failed => exact hapart.same (.of_players rfl rfl)
    | connected => exact hapart.same (.of_players rfl rfl)
  | serves hgate hserved =>
    cases hserved with
    | ignored => exact hapart
    | shut => exact hapart
    | users => exact hapart
    | unfit => exact hapart
    | invited _ _ _ _ heffect => exact hapart.same heffect.keepsSessions.sameNames
    | answered _ _ _ _ _ _ heffect =>
      unfold World.answered
      split
      . exact hapart.same heffect.keepsSessions.sameNames
      . exact hapart.same heffect.keepsSessions.sameNames
    | loginRefused => exact hapart
    | loginNoRoom _ _ _ _ _ hstore =>
      dsimp only
      rw [World.nacked_store]
      rcases hstore with hstore | ⟨p, hstore⟩
      . rw [hstore]
        exact hapart
      . -- the player that is lost is not in the registry
        rw [hstore]
        refine hapart.same ⟨rfl, fun player hmem => ?_⟩
        obtain ⟨p', hp'⟩ := hv.registry_live player hmem
        dsimp only
        rw [hp', Heap.get?_push_of_get? hp']
    | loginTaken => exact hapart.enlist hv _
    | loggedIn => exact (hapart.enlist hv _).same (Store.sameNames_login ..)
  | departs _ _ hdeparts =>
    cases hdeparts with
    | loggedOut => exact hapart.same (Store.sameNames_unregister ..)
    | loggedIn _ _ _ hlogout =>
      exact hapart.same ((hlogout.keepsSessions.sameNames.trans (Store.sameNames_leave ..)).trans
        (Store.sameNames_unregister ..))
  | calls _ _ heffect => exact hapart.same heffect.keepsSessions.sameNames

theorem namesApart_of_reach {guard : Server → Event → Prop}
    (h : (machine env).Reach guard initialServer σ) : σ.Ok ∧ σ.world.store.NamesApart := by
  refine h.invariant (fun σ => σ.Ok ∧ σ.world.store.NamesApart) ⟨initial_ok, ?_⟩ ?_
  . intro player hmem
    simp [initialServer, initialWorld, initialStore] at hmem
  . rintro σ e σ' ⟨hok, hapart⟩ - hstep
    have hsteps := steps_of_step hok hstep
    exact ⟨hsteps.ok hok, hsteps.namesApart hok hapart⟩

end Server

end Jeux
