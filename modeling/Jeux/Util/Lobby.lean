import Mathlib.Logic.Relation
import Jeux.Util.Ledger

/-!
What a lobby for games of two is for. Whoever is there has come in under a name, offers games to
others, plays those that are accepted, and what comes of a game changes the ratings of the two names.
What a game is and how it is rated is up to rules.
-/

namespace Lobby

inductive Seat where
  | first
  | second
  deriving DecidableEq

def Seat.other : Seat → Seat
  | .first => .second
  | .second => .first

structure Rules (P M : Type) where
  start : P
  play : P → Seat → M → Option P
  outcome : P → Option (Option Seat)
  initial : Int
  settle : Int → Int → Option Seat → Int × Int
  begins : outcome start = none

/--
Two who have to do with each other. As long as there is no position the game is only on offer.
-/
@[ext]
structure Pairing (C P : Type) where
  first : C
  second : C
  host : Seat
  position : Option P

namespace Pairing

variable {C P : Type} {m : Pairing C P} {x : C}

def seated (m : Pairing C P) : Seat → C
  | .first => m.first
  | .second => m.second

def guest (m : Pairing C P) : C := m.seated m.host.other

def TakesPart (m : Pairing C P) (x : C) : Prop := ∃ seat, m.seated seat = x

theorem takesPart_iff : m.TakesPart x ↔ m.first = x ∨ m.second = x := by
  constructor
  . rintro ⟨_ | _, h⟩
    . exact .inl h
    . exact .inr h
  . rintro (h | h)
    . exact ⟨.first, h⟩
    . exact ⟨.second, h⟩

def offered (x guest : C) : Seat → Pairing C P
  | .first => { first := x, second := guest, host := .first, position := none }
  | .second => { first := guest, second := x, host := .second, position := none }

theorem guest_offered (x guest : C) (host : Seat)
    : (offered x guest host : Pairing C P).guest = guest := by cases host <;> rfl

theorem takesPart_offered {guest : C} {host : Seat} {y : C}
    : (offered x guest host : Pairing C P).TakesPart y ↔ x = y ∨ guest = y := by
  rw [takesPart_iff]
  cases host
  . rfl
  . exact or_comm

theorem seated_injective (hdistinct : m.first ≠ m.second) {seat seat' : Seat}
    (h : m.seated seat = m.seated seat') : seat = seat' := by
  cases seat <;> cases seat' <;> simp_all [seated, eq_comm]

@[simp]
theorem takesPart_position (m : Pairing C P) (position : Option P)
    : ({ m with position } : Pairing C P).TakesPart x ↔ m.TakesPart x := by
  rw [takesPart_iff, takesPart_iff]

end Pairing

inductive Action (N C I M : Type) where
  | login (name : N)
  | logout
  | offer (id : I) (guest : C) (host : Seat)
  | withdraw (id : I)
  | accept (id : I)
  | move (id : I) (mv : M)
  | resign (id : I)

end Lobby

/--
A lobby: the names that have ever come in with their ratings, who is in, and the games.
-/
@[ext]
structure Lobby (N C I P : Type) where
  enrolled : N → Prop
  rating : N → Int
  session : C → Option N
  pairing : I → Option (Lobby.Pairing C P)

namespace Lobby

variable {N C I P M : Type} {R : Rules P M} {l l' l'' : Lobby N C I P} {x y : C} {name : N} {id : I}
  {m : Pairing C P}

def empty (R : Rules P M) : Lobby N C I P where
  enrolled := fun _ => False
  rating := fun _ => R.initial
  session := fun _ => none
  pairing := fun _ => none

/-! ## What holds in a lobby -/

/--
What holds whatever anybody has done: nobody is in twice, those who have to do with each other are
two, and in, and no game that is over is left.
-/
structure Sound (R : Rules P M) (l : Lobby N C I P) : Prop where
  enrolled : ∀ x name, l.session x = some name → l.enrolled name
  initial : ∀ name, ¬ l.enrolled name → l.rating name = R.initial
  alone : ∀ x y name, l.session x = some name → l.session y = some name → x = y
  seated : ∀ id m x, l.pairing id = some m → m.TakesPart x → l.session x ≠ none
  distinct : ∀ id m, l.pairing id = some m → m.first ≠ m.second
  on : ∀ id m p, l.pairing id = some m → m.position = some p → R.outcome p = none

theorem empty_sound (R : Rules P M) : (empty R : Lobby N C I P).Sound R := by
  constructor <;> simp [empty]

/-! ## Whom something is of no concern to -/

/--
What becomes of the rating of `name` may be up to `x`: they have a game with each other, or `x` has
been offered one.
-/
def Exposed (l : Lobby N C I P) (x : C) (name : N) : Prop :=
  ∃ y id m, l.session y = some name ∧ l.pairing id = some m ∧ m.TakesPart x ∧ m.TakesPart y
    ∧ (m.position ≠ none ∨ m.guest = x)

/--
What has not been up to `x`: who the others are, their games with each other, and the ratings of
those who had no game with `x`.
-/
structure Spares (x : C) (l l' : Lobby N C I P) : Prop where
  session : ∀ y, y ≠ x → l'.session y = l.session y
  pairing : ∀ id m, ¬ m.TakesPart x → (l'.pairing id = some m ↔ l.pairing id = some m)
  rating : ∀ name, ¬ l.Exposed x name → l'.rating name = l.rating name

theorem Spares.refl (x : C) (l : Lobby N C I P) : l.Spares x l :=
  ⟨fun _ _ => rfl, fun _ _ _ => Iff.rfl, fun _ _ => rfl⟩

theorem Spares.trans (h : Spares x l l') (h' : Spares x l' l'')
    (hexposed : ∀ name, l'.Exposed x name → l.Exposed x name) : Spares x l l'' where
  session := fun y hne => (h'.session y hne).trans (h.session y hne)
  pairing := fun id m hpart => (h'.pairing id m hpart).trans (h.pairing id m hpart)
  rating := fun name hno =>
    (h'.rating name fun hname => hno (hexposed name hname)).trans (h.rating name hno)

/-! ## What can be seen -/

/--
The same to look at: who has been in before does not show.
-/
structure Looks (l l' : Lobby N C I P) : Prop where
  rating : l'.rating = l.rating
  session : l'.session = l.session
  pairing : l'.pairing = l.pairing

theorem Looks.refl (l : Lobby N C I P) : l.Looks l := ⟨rfl, rfl, rfl⟩

theorem Looks.symm (h : l.Looks l') : l'.Looks l := ⟨h.rating.symm, h.session.symm, h.pairing.symm⟩

theorem Looks.trans (h : l.Looks l') (h' : l'.Looks l'') : l.Looks l'' where
  rating := h'.rating.trans h.rating
  session := h'.session.trans h.session
  pairing := h'.pairing.trans h.pairing

theorem Looks.spares {k k' : Lobby N C I P} (h : l.Looks k) (h' : l'.Looks k')
    (hspares : Spares x l l') : Spares x k k' where
  session := by
    rw [h.session, h'.session]
    exact hspares.session
  pairing := by
    rw [h.pairing, h'.pairing]
    exact hspares.pairing
  rating := by
    unfold Exposed
    rw [h.session, h.pairing, h.rating, h'.rating]
    exact hspares.rating

/-! ## A game takes the place of another -/

section Pairing

variable [DecidableEq I]

def withPairing (l : Lobby N C I P) (id : I) (o : Option (Pairing C P)) : Lobby N C I P :=
  { l with pairing := Function.update l.pairing id o }

theorem Sound.withPairing (h : l.Sound R) (id : I) {o : Option (Pairing C P)}
    (hseated : ∀ m ∈ o, ∀ x, m.TakesPart x → l.session x ≠ none)
    (hdistinct : ∀ m ∈ o, m.first ≠ m.second)
    (hon : ∀ m ∈ o, ∀ p ∈ m.position, R.outcome p = none) : (l.withPairing id o).Sound R := by
  have hcases : ∀ {id' m}, (l.withPairing id o).pairing id' = some m →
      m ∈ o ∨ l.pairing id' = some m := by
    intro id' m hm
    unfold Lobby.withPairing at hm
    dsimp only at hm
    by_cases heq : id' = id
    . subst heq
      rw [Function.update_self] at hm
      exact .inl hm
    . rw [Function.update_of_ne heq] at hm
      exact .inr hm
  refine ⟨h.enrolled, h.initial, h.alone, ?_, ?_, ?_⟩
  . intro id' m y hm hpart
    rcases hcases hm with hmem | hm
    . exact hseated m hmem y hpart
    . exact h.seated id' m y hm hpart
  . intro id' m hm
    rcases hcases hm with hmem | hm
    . exact hdistinct m hmem
    . exact h.distinct id' m hm
  . intro id' m p hm hp
    rcases hcases hm with hmem | hm
    . exact hon m hmem p hp
    . exact h.on id' m p hm hp

theorem Sound.gone (h : l.Sound R) (id : I) : (l.withPairing id none).Sound R :=
  h.withPairing id (by simp) (by simp) (by simp)

theorem Sound.position (h : l.Sound R) (hm : l.pairing id = some m) {p : P}
    (hon : R.outcome p = none)
    : (l.withPairing id (some { m with position := some p })).Sound R := by
  refine h.withPairing id ?_ ?_ ?_
  . rintro _ ⟨⟩ x hpart
    exact h.seated id m x hm ((m.takesPart_position _).mp hpart)
  . rintro _ ⟨⟩
    exact h.distinct id m hm
  . rintro _ ⟨⟩ _ ⟨⟩
    exact hon

theorem pairing_withPairing_iff {o : Option (Pairing C P)} {id' : I}
    (hold : ∀ m ∈ l.pairing id, m.TakesPart x) (hnew : ∀ m ∈ o, m.TakesPart x)
    (hm : ¬ m.TakesPart x)
    : (l.withPairing id o).pairing id' = some m ↔ l.pairing id' = some m := by
  unfold withPairing
  dsimp only
  by_cases heq : id' = id
  . subst heq
    rw [Function.update_self]
    exact iff_of_false (fun h => hm (hnew m h)) (fun h => hm (hold m h))
  . rw [Function.update_of_ne heq]

theorem Spares.withPairing {o : Option (Pairing C P)}
    (hold : ∀ m ∈ l.pairing id, m.TakesPart x) (hnew : ∀ m ∈ o, m.TakesPart x)
    : l.Spares x (l.withPairing id o) where
  session := fun _ _ => rfl
  pairing := fun _ _ => pairing_withPairing_iff hold hnew
  rating := fun _ _ => rfl

theorem Exposed.of_withPairing {o : Option (Pairing C P)}
    (h : (l.withPairing id o).Exposed x name)
    (hnew : ∀ m ∈ o, m.position ≠ none ∨ m.guest = x → ∃ m₀, l.pairing id = some m₀
      ∧ (m₀.position ≠ none ∨ m₀.guest = x) ∧ ∀ y, m.TakesPart y → m₀.TakesPart y)
    : l.Exposed x name := by
  obtain ⟨y, id', m, hy, hm, hpart, hparty, hstake⟩ := h
  unfold Lobby.withPairing at hm
  dsimp only at hm
  by_cases heq : id' = id
  . subst heq
    rw [Function.update_self] at hm
    obtain ⟨m₀, hm₀, hstake₀, hparts⟩ := hnew m hm hstake
    exact ⟨y, id', m₀, hy, hm₀, hparts x hpart, hparts y hparty, hstake₀⟩
  . rw [Function.update_of_ne heq] at hm
    exact ⟨y, id', m, hy, hm, hpart, hparty, hstake⟩

/-! ## A game comes to its end -/

variable [DecidableEq N]

def concluded (R : Rules P M) (l : Lobby N C I P) (id : I) (first second : N)
    (winner : Option Seat) : Lobby N C I P :=
  { l with
    rating := Ledger.post R.settle l.rating ⟨first, second, winner⟩
    pairing := Function.update l.pairing id none }

theorem Sound.concluded (h : l.Sound R) (id : I) {first second : N} (winner : Option Seat)
    (hfirst : l.enrolled first) (hsecond : l.enrolled second)
    : (l.concluded R id first second winner).Sound R := by
  have hgone := h.gone id
  refine ⟨h.enrolled, ?_, h.alone, hgone.seated, hgone.distinct, hgone.on⟩
  intro name hname
  rw [← h.initial name hname]
  refine Ledger.post_of_not_concerns ?_
  rintro (rfl | rfl)
  . exact hname hfirst
  . exact hname hsecond

theorem Spares.concluded {first second : N} {p : P} (winner : Option Seat)
    (hm : l.pairing id = some m) (hpart : m.TakesPart x) (hposition : m.position = some p)
    (hfirst : l.session m.first = some first) (hsecond : l.session m.second = some second)
    : l.Spares x (l.concluded R id first second winner) where
  session := fun _ _ => rfl
  pairing := by
    intro id' m' hno
    have hmine : ∀ m' ∈ l.pairing id, m'.TakesPart x :=
      fun m' hm' => Option.some.inj (hm.symm.trans hm') ▸ hpart
    exact pairing_withPairing_iff (o := none) hmine (by simp) hno
  rating := by
    intro name hno
    refine Ledger.post_of_not_concerns ?_
    rintro (rfl | rfl)
    . exact hno ⟨m.first, id, m, hfirst, hm, hpart, ⟨.first, rfl⟩, .inl (by simp [hposition])⟩
    . exact hno ⟨m.second, id, m, hsecond, hm, hpart, ⟨.second, rfl⟩, .inl (by simp [hposition])⟩

end Pairing

/-! ## What can be done -/

variable [DecidableEq N] [DecidableEq C] [DecidableEq I] {a : Action N C I M}
  {as as' : List (Action N C I M)}

/--
`Step R x l a l'`: with the action `a`, `x` can take `l` to `l'`.
-/
inductive Step (R : Rules P M) (x : C) (l : Lobby N C I P)
    : Action N C I M → Lobby N C I P → Prop
  | login {name : N} (hout : l.session x = none) (hfree : ∀ y, l.session y ≠ some name)
      : Step R x l (.login name) {
          l with
          enrolled := fun n => n = name ∨ l.enrolled n
          session := Function.update l.session x (some name) }
  | logout (hin : l.session x ≠ none) (hidle : ∀ id m, l.pairing id = some m → ¬ m.TakesPart x)
      : Step R x l .logout { l with session := Function.update l.session x none }
  | offer {id : I} {guest : C} {host : Seat} (hin : l.session x ≠ none)
      (hguest : l.session guest ≠ none) (hne : guest ≠ x) (hnew : l.pairing id = none)
      : Step R x l (.offer id guest host) (l.withPairing id (some (.offered x guest host)))
  | withdraw {id : I} {m : Pairing C P} (hm : l.pairing id = some m) (hopen : m.position = none)
      (hpart : m.TakesPart x) : Step R x l (.withdraw id) (l.withPairing id none)
  | accept {id : I} {m : Pairing C P} (hm : l.pairing id = some m) (hopen : m.position = none)
      (hguest : m.guest = x)
      : Step R x l (.accept id) (l.withPairing id (some { m with position := some R.start }))
  | move {id : I} {m : Pairing C P} {seat : Seat} {p p' : P} {mv : M}
      (hm : l.pairing id = some m) (hseat : m.seated seat = x) (hposition : m.position = some p)
      (hplay : R.play p seat mv = some p') (hon : R.outcome p' = none)
      : Step R x l (.move id mv) (l.withPairing id (some { m with position := some p' }))
  | finish {id : I} {m : Pairing C P} {seat : Seat} {p p' : P} {mv : M} {winner : Option Seat}
      {first second : N} (hm : l.pairing id = some m) (hseat : m.seated seat = x)
      (hposition : m.position = some p) (hplay : R.play p seat mv = some p')
      (hover : R.outcome p' = some winner) (hfirst : l.session m.first = some first)
      (hsecond : l.session m.second = some second)
      : Step R x l (.move id mv) (l.concluded R id first second winner)
  | resign {id : I} {m : Pairing C P} {seat : Seat} {p : P} {first second : N}
      (hm : l.pairing id = some m) (hseat : m.seated seat = x) (hposition : m.position = some p)
      (hfirst : l.session m.first = some first) (hsecond : l.session m.second = some second)
      : Step R x l (.resign id) (l.concluded R id first second (some seat.other))

inductive Run (R : Rules P M) (x : C) : Lobby N C I P → List (Action N C I M) → Lobby N C I P → Prop
  | nil (l : Lobby N C I P) : Run R x l [] l
  | cons {l l' l'' : Lobby N C I P} {a : Action N C I M} {as : List (Action N C I M)}
      (hstep : Step R x l a l') (hrest : Run R x l' as l'') : Run R x l (a :: as) l''

def Reachable (R : Rules P M) (l : Lobby N C I P) : Prop :=
  Relation.ReflTransGen (fun l l' => ∃ x a, Step R x l a l') (empty R) l

theorem Run.eq_of_nil (h : Run R x l ([] : List (Action N C I M)) l') : l' = l := by
  cases h
  rfl

theorem Run.append (h : Run R x l as l') (h' : Run R x l' as' l'') : Run R x l (as ++ as') l'' := by
  induction h with
  | nil => exact h'
  | cons hstep _ ih => exact .cons hstep (ih h')

theorem Step.run (h : Step R x l a l') : Run R x l [a] l' := .cons h (.nil _)

theorem Run.reachable (h : Run R x l as l') (hreach : Reachable R l) : Reachable R l' := by
  induction h with
  | nil => exact hreach
  | cons hstep _ ih => exact ih (hreach.tail ⟨x, _, hstep⟩)

theorem Step.sound (h : Step R x l a l') (hl : l.Sound R) : l'.Sound R := by
  cases h with
  | @login name hout hfree =>
    have hcases : ∀ {y n}, Function.update l.session x (some name) y = some n →
        (y = x ∧ n = name) ∨ (y ≠ x ∧ l.session y = some n) := by
      intro y n hy
      by_cases heq : y = x
      . subst heq
        rw [Function.update_self, Option.some.injEq] at hy
        exact .inl ⟨rfl, hy.symm⟩
      . rw [Function.update_of_ne heq] at hy
        exact .inr ⟨heq, hy⟩
    refine ⟨?_, ?_, ?_, ?_, hl.distinct, hl.on⟩
    . intro y n hy
      rcases hcases hy with ⟨-, rfl⟩ | ⟨-, hy⟩
      . exact .inl rfl
      . exact .inr (hl.enrolled y n hy)
    . exact fun n hn => hl.initial n fun hold => hn (.inr hold)
    . intro y z n hy hz
      rcases hcases hy with ⟨rfl, rfl⟩ | ⟨-, hy'⟩
      . rcases hcases hz with ⟨rfl, -⟩ | ⟨-, hz'⟩
        . rfl
        . exact absurd hz' (hfree z)
      . rcases hcases hz with ⟨-, rfl⟩ | ⟨-, hz'⟩
        . exact absurd hy' (hfree y)
        . exact hl.alone y z n hy' hz'
    . intro id m y hm hpart
      dsimp only
      by_cases heq : y = x
      . rw [heq, Function.update_self]
        exact Option.some_ne_none name
      . rw [Function.update_of_ne heq]
        exact hl.seated id m y hm hpart
  | logout hin hidle =>
    have hold : ∀ {y n}, Function.update l.session x none y = some n → l.session y = some n := by
      intro y n hy
      by_cases heq : y = x
      . rw [heq, Function.update_self] at hy
        exact absurd hy.symm (Option.some_ne_none n)
      . rwa [Function.update_of_ne heq] at hy
    refine ⟨fun y n hy => hl.enrolled y n (hold hy), hl.initial,
      fun y z n hy hz => hl.alone y z n (hold hy) (hold hz), ?_, hl.distinct, hl.on⟩
    intro id m y hm hpart
    have hne : y ≠ x := fun heq => hidle id m hm (heq ▸ hpart)
    dsimp only
    rw [Function.update_of_ne hne]
    exact hl.seated id m y hm hpart
  | @offer id guest host hin hguest hne hnew =>
    refine hl.withPairing id ?_ ?_ ?_
    . rintro _ ⟨⟩ y hpart
      rcases Pairing.takesPart_offered.mp hpart with rfl | rfl
      . exact hin
      . exact hguest
    . rintro _ ⟨⟩
      cases host
      . exact hne.symm
      . exact hne
    . rintro _ ⟨⟩ p hp
      cases host <;> simp [Pairing.offered] at hp
  | withdraw => exact hl.gone _
  | accept hm => exact hl.position hm R.begins
  | move hm _ _ _ hon => exact hl.position hm hon
  | finish _ _ _ _ _ hfirst hsecond =>
    exact hl.concluded _ _ (hl.enrolled _ _ hfirst) (hl.enrolled _ _ hsecond)
  | resign _ _ _ hfirst hsecond =>
    exact hl.concluded _ _ (hl.enrolled _ _ hfirst) (hl.enrolled _ _ hsecond)

theorem Reachable.sound (h : Reachable R l) : l.Sound R := by
  induction h with
  | refl => exact empty_sound R
  | tail _ hstep ih =>
    obtain ⟨x, a, hstep⟩ := hstep
    exact hstep.sound ih

theorem Step.spares (h : Step R x l a l') : l.Spares x l' := by
  have hmine : ∀ {id m}, l.pairing id = some m → m.TakesPart x → ∀ m' ∈ l.pairing id,
      m'.TakesPart x := by
    rintro id m hm hpart m' hm'
    exact Option.some.inj (hm.symm.trans hm') ▸ hpart
  cases h with
  | login => exact ⟨fun y hne => Function.update_of_ne hne _ _, fun _ _ _ => Iff.rfl, fun _ _ => rfl⟩
  | logout => exact ⟨fun y hne => Function.update_of_ne hne _ _, fun _ _ _ => Iff.rfl, fun _ _ => rfl⟩
  | offer _ _ _ hnew =>
    refine .withPairing (by simp [hnew]) ?_
    rintro _ ⟨⟩
    exact Pairing.takesPart_offered.mpr (.inl rfl)
  | withdraw hm _ hpart => exact .withPairing (hmine hm hpart) (by simp)
  | @accept _ m hm _ hguest =>
    have hpart : m.TakesPart x := ⟨_, hguest⟩
    refine .withPairing (hmine hm hpart) ?_
    rintro _ ⟨⟩
    exact (m.takesPart_position _).mpr hpart
  | @move _ m _ _ _ _ hm hseat =>
    have hpart : m.TakesPart x := ⟨_, hseat⟩
    refine .withPairing (hmine hm hpart) ?_
    rintro _ ⟨⟩
    exact (m.takesPart_position _).mpr hpart
  | finish hm hseat hposition _ _ hfirst hsecond =>
    exact .concluded _ hm ⟨_, hseat⟩ hposition hfirst hsecond
  | resign hm hseat hposition hfirst hsecond =>
    exact .concluded _ hm ⟨_, hseat⟩ hposition hfirst hsecond

theorem Step.exposed (h : Step R x l a l') (hl : l.Sound R) (hexposed : l'.Exposed x name)
    : l.Exposed x name := by
  cases h with
  | login hout =>
    obtain ⟨y, id, m, hy, hm, hpart, hparty, hstake⟩ := hexposed
    by_cases heq : y = x
    . exact absurd hout (hl.seated id m x hm hpart)
    . have hy' : l.session y = some name := (Function.update_of_ne heq _ _).symm.trans hy
      exact ⟨y, id, m, hy', hm, hpart, hparty, hstake⟩
  | logout _ hidle =>
    obtain ⟨y, id, m, hy, hm, hpart, hparty, hstake⟩ := hexposed
    exact absurd hpart (hidle id m hm)
  | offer _ _ hne =>
    refine hexposed.of_withPairing ?_
    rintro _ ⟨⟩ (hposition | hguest)
    . exact absurd (by unfold Pairing.offered; split <;> rfl) hposition
    . rw [Pairing.guest_offered] at hguest
      exact absurd hguest hne
  | withdraw => exact hexposed.of_withPairing (by simp)
  | @accept _ m hm _ hguest =>
    refine hexposed.of_withPairing ?_
    rintro _ ⟨⟩ -
    exact ⟨m, hm, .inr hguest, fun y => (m.takesPart_position _).mp⟩
  | @move _ m _ _ _ _ hm _ hposition =>
    refine hexposed.of_withPairing ?_
    rintro _ ⟨⟩ -
    exact ⟨m, hm, .inl (by simp [hposition]), fun y => (m.takesPart_position _).mp⟩
  | finish => exact hexposed.of_withPairing (o := none) (by simp)
  | resign => exact hexposed.of_withPairing (o := none) (by simp)

theorem Run.spares (h : Run R x l as l') (hl : l.Sound R) : l.Spares x l' := by
  induction h with
  | nil => exact .refl x _
  | cons hstep _ ih =>
    exact hstep.spares.trans (ih (hstep.sound hl)) fun name => hstep.exposed hl

/--
Nobody else can come in under a name, and without it its rating stays.
-/
theorem Step.absent (h : Step R x l a l') (hout : ∀ y, l.session y ≠ some name)
    (hnot : a ≠ .login name)
    : l'.rating name = l.rating name ∧ ∀ y, l'.session y ≠ some name := by
  refine ⟨h.spares.rating name ?_, ?_⟩
  . rintro ⟨y, id, m, hy, -⟩
    exact hout y hy
  . intro y hy
    by_cases heq : y = x
    . cases h with
      | login =>
        rw [heq] at hy
        have hname := (Function.update_self _ _ _).symm.trans hy
        exact hnot (congrArg _ (Option.some.inj hname))
      | logout =>
        rw [heq] at hy
        exact absurd ((Function.update_self _ _ _).symm.trans hy) (by simp)
      | _ => exact hout y hy
    . exact hout y ((h.spares.session y heq).symm.trans hy)

theorem Run.absent (h : Run R x l as l') (hout : ∀ y, l.session y ≠ some name)
    (hnot : .login name ∉ as)
    : l'.rating name = l.rating name ∧ ∀ y, l'.session y ≠ some name := by
  induction h with
  | nil => exact ⟨rfl, hout⟩
  | cons hstep _ ih =>
    rw [List.mem_cons, not_or] at hnot
    obtain ⟨hhead, htail⟩ := hnot
    obtain ⟨hrating, hout'⟩ := hstep.absent hout (Ne.symm hhead)
    obtain ⟨hrest, hout''⟩ := ih hout' htail
    exact ⟨hrest.trans hrating, hout''⟩

theorem Step.deterministic (h : Step R x l a l') (h' : Step R x l a l'') (hl : l.Sound R)
    : l' = l'' := by
  -- what is left to choose is the seat of `x`, and the two names
  have hseats : ∀ {id m m' seat seat'}, l.pairing id = some m → l.pairing id = some m' →
      m.seated seat = x → m'.seated seat' = x → m = m' ∧ seat = seat' := by
    rintro id m m' seat seat' hm hm' hseat hseat'
    obtain rfl := Option.some.inj (hm.symm.trans hm')
    exact ⟨rfl, Pairing.seated_injective (hl.distinct id m hm) (hseat.trans hseat'.symm)⟩
  cases h with
  | login => cases h'; rfl
  | logout => cases h'; rfl
  | offer => cases h'; rfl
  | withdraw => cases h'; rfl
  | accept hm =>
    cases h' with
    | accept hm' => rw [Option.some.inj (hm.symm.trans hm')]
  | move hm hseat hposition hplay hon =>
    cases h' with
    | move hm' hseat' hposition' hplay' =>
      obtain ⟨rfl, rfl⟩ := hseats hm hm' hseat hseat'
      obtain rfl := Option.some.inj (hposition.symm.trans hposition')
      rw [Option.some.inj (hplay.symm.trans hplay')]
    | finish hm' hseat' hposition' hplay' hover =>
      obtain ⟨rfl, rfl⟩ := hseats hm hm' hseat hseat'
      obtain rfl := Option.some.inj (hposition.symm.trans hposition')
      obtain rfl := Option.some.inj (hplay.symm.trans hplay')
      simp [hon] at hover
  | finish hm hseat hposition hplay hover hfirst hsecond =>
    cases h' with
    | move hm' hseat' hposition' hplay' hon =>
      obtain ⟨rfl, rfl⟩ := hseats hm hm' hseat hseat'
      obtain rfl := Option.some.inj (hposition.symm.trans hposition')
      obtain rfl := Option.some.inj (hplay.symm.trans hplay')
      simp [hon] at hover
    | finish hm' hseat' hposition' hplay' hover' hfirst' hsecond' =>
      obtain ⟨rfl, rfl⟩ := hseats hm hm' hseat hseat'
      obtain rfl := Option.some.inj (hposition.symm.trans hposition')
      obtain rfl := Option.some.inj (hplay.symm.trans hplay')
      obtain rfl := Option.some.inj (hover.symm.trans hover')
      obtain rfl := Option.some.inj (hfirst.symm.trans hfirst')
      obtain rfl := Option.some.inj (hsecond.symm.trans hsecond')
      rfl
  | resign hm hseat hposition hfirst hsecond =>
    cases h' with
    | resign hm' hseat' hposition' hfirst' hsecond' =>
      obtain ⟨rfl, rfl⟩ := hseats hm hm' hseat hseat'
      obtain rfl := Option.some.inj (hfirst.symm.trans hfirst')
      obtain rfl := Option.some.inj (hsecond.symm.trans hsecond')
      rfl

theorem Step.looks {k : Lobby N C I P} (h : Step R x l a l') (hk : l.Looks k)
    : ∃ k', Step R x k a k' ∧ l'.Looks k' := by
  obtain ⟨enrolled, rating, session, pairing⟩ := k
  obtain ⟨rfl, rfl, rfl⟩ : rating = l.rating ∧ session = l.session ∧ pairing = l.pairing :=
    ⟨hk.rating, hk.session, hk.pairing⟩
  cases h with
  | login hout hfree => exact ⟨_, .login hout hfree, rfl, rfl, rfl⟩
  | logout hin hidle => exact ⟨_, .logout hin hidle, rfl, rfl, rfl⟩
  | offer hin hguest hne hnew => exact ⟨_, .offer hin hguest hne hnew, rfl, rfl, rfl⟩
  | withdraw hm hopen hpart => exact ⟨_, .withdraw hm hopen hpart, rfl, rfl, rfl⟩
  | accept hm hopen hguest => exact ⟨_, .accept hm hopen hguest, rfl, rfl, rfl⟩
  | move hm hseat hposition hplay hon =>
    exact ⟨_, .move hm hseat hposition hplay hon, rfl, rfl, rfl⟩
  | finish hm hseat hposition hplay hover hfirst hsecond =>
    exact ⟨_, .finish hm hseat hposition hplay hover hfirst hsecond, rfl, rfl, rfl⟩
  | resign hm hseat hposition hfirst hsecond =>
    exact ⟨_, .resign hm hseat hposition hfirst hsecond, rfl, rfl, rfl⟩

theorem Run.looks {k : Lobby N C I P} (h : Run R x l as l') (hk : l.Looks k)
    : ∃ k', Run R x k as k' ∧ l'.Looks k' := by
  induction h generalizing k with
  | nil => exact ⟨k, .nil k, hk⟩
  | cons hstep _ ih =>
    obtain ⟨k₁, hstep', hk₁⟩ := hstep.looks hk
    obtain ⟨k', hrun', hk'⟩ := ih hk₁
    exact ⟨k', .cons hstep' hrun', hk'⟩

/-! ## Positions -/

def Action.Plays : Action N C I M → Prop
  | .accept _ | .move _ _ => True
  | _ => False

theorem Step.position {p : P} (h : Step R x l a l') (hno : ¬ a.Plays)
    (hm : l'.pairing id = some m) (hp : m.position = some p) : l.pairing id = some m := by
  have hgone : ∀ {id' : I} {o : Option (Pairing C P)}, (∀ m ∈ o, m.position = none) →
      Function.update l.pairing id' o id = some m → l.pairing id = some m := by
    intro id' o hopen hm
    by_cases heq : id = id'
    . rw [heq, Function.update_self] at hm
      rw [hopen m hm] at hp
      cases hp
    . rwa [Function.update_of_ne heq] at hm
  cases h with
  | login | logout => exact hm
  | @offer id' guest host =>
    refine hgone ?_ hm
    rintro _ ⟨⟩
    cases host <;> rfl
  | withdraw => exact hgone (by simp) hm
  | accept => exact absurd trivial hno
  | move => exact absurd trivial hno
  | finish => exact absurd trivial hno
  | resign => exact hgone (by simp) hm

theorem Run.position {p : P} (h : Run R x l as l') (hno : ∀ a ∈ as, ¬ a.Plays)
    (hm : l'.pairing id = some m) (hp : m.position = some p) : l.pairing id = some m := by
  induction h with
  | nil => exact hm
  | cons hstep _ ih =>
    rw [List.forall_mem_cons] at hno
    exact hstep.position hno.1 (ih hno.2 hm) hp

end Lobby
