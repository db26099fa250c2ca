import Mathlib.Data.Nat.Digits.Defs
import Jeux.Impl.Game

/-!
Moves as text: what `game_parse_move` makes of a string, and what it should.
-/

namespace Jeux

variable {g : Game} {role : GameRole} {move : GameMove} {str : CString} {b : Byte}

/-! ## Numbers of one digit -/

def squareDigit (square : Fin 9) : Byte := UInt8.ofNat (square.val + 1) + ascii '0'

def NoNumber (str : CString) : Prop :=
  ∀ b ∈ str.head?, isSpace b = false ∧ isDigit b = false ∧ b ≠ ascii '-' ∧ b ≠ ascii '+'

theorem digitsValue_of_noNumber (h : NoNumber str) (n : Nat) : digitsValue n str = n := by
  cases str with
  | nil => rfl
  | cons b rest =>
    obtain ⟨-, hdigit, -⟩ := h b rfl
    rw [digitsValue, hdigit]
    rfl

theorem not_isDigit_of_isSpace (h : isSpace b = true) : isDigit b = false := by
  simp only [isSpace, Bool.or_eq_true, Bool.and_eq_true, decide_eq_true_eq, UInt8.le_iff_toNat_le,
    ← UInt8.toNat_inj] at h
  simp only [isDigit, Bool.and_eq_false_iff, decide_eq_false_iff_not, UInt8.le_iff_toNat_le]
  have h32 : (32 : UInt8).toNat = 32 := rfl
  have h13 : (13 : UInt8).toNat = 13 := rfl
  have h48 : (48 : UInt8).toNat = 48 := rfl
  omega

theorem atoi_cons (h : NoNumber str)
    : atoi (b :: str) = if isDigit b then ((b.toNat - 48 : Nat) : Int) else 0 := by
  unfold atoi
  cases hspace : isSpace b with
  | true =>
    have hdigit := not_isDigit_of_isSpace hspace
    rw [List.dropWhile_cons_of_pos hspace, hdigit]
    cases str with
    | nil => rfl
    | cons b' rest =>
      obtain ⟨hspace', hdigit', hminus, hplus⟩ := h b' rfl
      rw [List.dropWhile_cons_of_neg (by simp [hspace'])]
      simp only [if_neg hminus, if_neg hplus, digitsValue, hdigit']
      rfl
  | false =>
    rw [List.dropWhile_cons_of_neg (by simp [hspace])]
    dsimp only
    split
    . next heq =>
      subst heq
      rw [digitsValue_of_noNumber h]
      rfl
    . split
      . next heq =>
        subst heq
        rw [digitsValue_of_noNumber h]
        rfl
      . rw [digitsValue]
        split
        . rw [digitsValue_of_noNumber h, Nat.mul_zero, Nat.zero_add]
        . rfl

theorem squareDigit_toNat (square : Fin 9) : (squareDigit square).toNat = square.val + 49 := by
  revert square
  decide

theorem isDigit_iff : isDigit b = true ↔ 48 ≤ b.toNat ∧ b.toNat ≤ 57 := by
  simp only [isDigit, Bool.and_eq_true, decide_eq_true_eq, UInt8.le_iff_toNat_le]
  exact Iff.rfl

theorem moveTo?_eq_some
    : moveTo? role str = some move ↔ atoi str = move.move.val + 1 ∧ move.role = role := by
  unfold moveTo?
  dsimp only
  constructor
  . intro hmove
    split at hmove
    . simp at hmove
    . obtain rfl := Option.some.inj hmove
      refine ⟨?_, rfl⟩
      dsimp only
      omega
  . rintro ⟨hatoi, rfl⟩
    have hlt := move.move.isLt
    rw [dif_neg (by omega)]
    simp [hatoi]

theorem moveTo?_cons (h : NoNumber str)
    : moveTo? role (b :: str) = some move ↔ b = squareDigit move.move ∧ move.role = role := by
  have hlt := move.move.isLt
  rw [moveTo?_eq_some, atoi_cons h, ← UInt8.toNat_inj, squareDigit_toNat]
  apply and_congr_left'
  cases hdigit : isDigit b with
  | false =>
    have hno : ¬ (48 ≤ b.toNat ∧ b.toNat ≤ 57) := by
      rw [← isDigit_iff, hdigit]
      simp
    simp only [Bool.false_eq_true, ↓reduceIte]
    omega
  | true =>
    have hrange := isDigit_iff.mp hdigit
    simp only [↓reduceIte]
    omega

/-! ## Moves -/

def MoveText (g : Game) (square : Fin 9) (str : CString) : Prop :=
  str = [squareDigit square]
    ∨ (g.currentPlayer = .firstPlayerRole
        ∧ str = [squareDigit square, ascii '<', ascii '-', ascii 'X'])
    ∨ (g.currentPlayer = .secondPlayerRole
        ∧ str = [squareDigit square, ascii '<', ascii '-', ascii 'O'])

def RoleFits (g : Game) (role : GameRole) : Prop := role = .nullRole ∨ role = g.currentPlayer

/--
`game_parse_move` accepts a string exactly if it should, and as the move it should.
-/
def ParsesAsDocumented (g : Game) (role : GameRole) (str : CString) : Prop :=
  ∀ move, gameParseMove g role str = some move
    ↔ MoveText g move.move str ∧ RoleFits g role ∧ move.role = role

def PassesFor (g : Game) (b : Byte) : Prop :=
  ¬ (b = ascii 'X' ∧ g.currentPlayer ≠ .firstPlayerRole)
    ∧ ¬ (b = ascii 'O' ∧ g.currentPlayer ≠ .secondPlayerRole)

instance (g : Game) (role : GameRole) : Decidable (RoleFits g role) :=
  inferInstanceAs (Decidable (_ ∨ _))

instance (g : Game) (b : Byte) : Decidable (PassesFor g b) := inferInstanceAs (Decidable (_ ∧ _))

theorem noNumber_nil : NoNumber [] := by simp [NoNumber]

theorem noNumber_arrow (str : CString) : NoNumber (ascii '<' :: str) := by
  intro b hb
  obtain rfl := Option.some.inj hb
  decide

theorem gameParseMove_short
    : gameParseMove g role [b] = some move ↔ b = squareDigit move.move ∧ move.role = role :=
  moveTo?_cons noNumber_nil

theorem gameParseMove_long {b1 b2 b3 : Byte}
    : gameParseMove g role [b, b1, b2, b3] = some move
        ↔ (b1 = ascii '<' ∧ b2 = ascii '-' ∧ PassesFor g b3)
          ∧ b = squareDigit move.move ∧ move.role = role := by
  unfold gameParseMove PassesFor
  dsimp only
  split
  . next harrow =>
    simp only [reduceCtorEq, false_iff]
    rintro ⟨⟨rfl, rfl, -⟩, -⟩
    simp at harrow
  . next harrow =>
    obtain ⟨rfl, rfl⟩ : b1 = ascii '<' ∧ b2 = ascii '-' := by simpa using harrow
    split
    . next hx => simp [hx]
    . next hx =>
      split
      . next ho => simp [ho]
      . next ho =>
        rw [moveTo?_cons (noNumber_arrow [ascii '-', b3])]
        simp only [hx, ho, not_false_eq_true, and_self, true_and]

theorem gameParseMove_other (hshort : str.length ≠ 1) (hlong : str.length ≠ 4)
    : gameParseMove g role str = none := by
  unfold gameParseMove
  split
  . simp at hshort
  . simp at hlong
  . rfl

/--
The strings for which the check that is missing makes no difference: a move for a role whose turn it
is not, and an arrow to something that is no player.
-/
def ParsesSafely (g : Game) (role : GameRole) (str : CString) : Prop :=
  (∀ square, str = [squareDigit square] → RoleFits g role)
    ∧ ∀ square b, str = [squareDigit square, ascii '<', ascii '-', b] → PassesFor g b →
      RoleFits g role ∧ (b = ascii 'X' ∨ b = ascii 'O')

theorem passesFor_iff (hplayer : b = ascii 'X' ∨ b = ascii 'O')
    : PassesFor g b
        ↔ (g.currentPlayer = .firstPlayerRole ∧ b = ascii 'X')
          ∨ (g.currentPlayer = .secondPlayerRole ∧ b = ascii 'O') := by
  have hne : ascii 'X' ≠ ascii 'O' := by decide
  unfold PassesFor
  rcases hplayer with rfl | rfl
  . simp [hne]
  . simp [hne.symm]

theorem parsesAsDocumented_iff
    : ParsesAsDocumented g role str ↔ ParsesSafely g role str := by
  constructor
  . intro h
    constructor
    . rintro square rfl
      exact ((h { move := square, role := role }).mp (gameParseMove_short.mpr ⟨rfl, rfl⟩)).2.1
    . rintro square b rfl hpasses
      obtain ⟨htext, hrole, -⟩ := (h { move := square, role := role }).mp
        (gameParseMove_long.mpr ⟨⟨rfl, rfl, hpasses⟩, rfl, rfl⟩)
      refine ⟨hrole, ?_⟩
      rcases htext with htext | ⟨-, htext⟩ | ⟨-, htext⟩
      . simp at htext
      . simp only [List.cons.injEq, and_true, true_and] at htext
        exact .inl htext
      . simp only [List.cons.injEq, and_true, true_and] at htext
        exact .inr htext
  . rintro ⟨hshort, hlong⟩ move
    constructor
    . intro hmove
      by_cases h1 : str.length = 1
      . obtain ⟨b, rfl⟩ := List.length_eq_one_iff.mp h1
        obtain ⟨rfl, hrole⟩ := gameParseMove_short.mp hmove
        exact ⟨.inl rfl, hshort _ rfl, hrole⟩
      . by_cases h4 : str.length = 4
        . obtain ⟨b, b1, b2, b3, rfl⟩ : ∃ b b1 b2 b3, str = [b, b1, b2, b3] := by
            match str, h4 with
            | [b, b1, b2, b3], _ => exact ⟨b, b1, b2, b3, rfl⟩
          obtain ⟨⟨rfl, rfl, hpasses⟩, rfl, hrole⟩ := gameParseMove_long.mp hmove
          obtain ⟨hfits, hplayer⟩ := hlong _ _ rfl hpasses
          refine ⟨.inr ?_, hfits, hrole⟩
          rcases (passesFor_iff hplayer).mp hpasses with ⟨hturn, rfl⟩ | ⟨hturn, rfl⟩
          . exact .inl ⟨hturn, rfl⟩
          . exact .inr ⟨hturn, rfl⟩
        . rw [gameParseMove_other h1 h4] at hmove
          simp at hmove
    . rintro ⟨htext, -, hrole⟩
      rcases htext with rfl | ⟨hturn, rfl⟩ | ⟨hturn, rfl⟩
      . exact gameParseMove_short.mpr ⟨rfl, hrole⟩
      . refine gameParseMove_long.mpr ⟨⟨rfl, rfl, ?_⟩, rfl, hrole⟩
        exact (passesFor_iff (.inl rfl)).mpr (.inl ⟨hturn, rfl⟩)
      . refine gameParseMove_long.mpr ⟨⟨rfl, rfl, ?_⟩, rfl, hrole⟩
        exact (passesFor_iff (.inr rfl)).mpr (.inr ⟨hturn, rfl⟩)

/--
What `game_unparse_move` prints is read back, with or without the player whose turn it is.
-/
def ReadsBack (g : Game) (move : GameMove) : Prop :=
  gameParseMove g move.role (gameUnparseMove move) = some move
    ∧ (g.currentPlayer = .firstPlayerRole →
      gameParseMove g move.role (gameUnparseMove move ++ [ascii '<', ascii '-', ascii 'X'])
        = some move)
    ∧ (g.currentPlayer = .secondPlayerRole →
      gameParseMove g move.role (gameUnparseMove move ++ [ascii '<', ascii '-', ascii 'O'])
        = some move)

theorem readsBack (g : Game) (move : GameMove) : ReadsBack g move := by
  have htext : gameUnparseMove move = [squareDigit move.move] := rfl
  unfold ReadsBack
  rw [htext]
  refine ⟨gameParseMove_short.mpr ⟨rfl, rfl⟩, ?_, ?_⟩
  . intro hturn
    refine gameParseMove_long.mpr ⟨⟨rfl, rfl, ?_⟩, rfl, rfl⟩
    exact (passesFor_iff (.inl rfl)).mpr (.inl ⟨hturn, rfl⟩)
  . intro hturn
    refine gameParseMove_long.mpr ⟨⟨rfl, rfl, ?_⟩, rfl, rfl⟩
    exact (passesFor_iff (.inr rfl)).mpr (.inr ⟨hturn, rfl⟩)

/--
The parser does what is documented exactly on the strings that are safe, and reads every move that
is printed.
-/
theorem parses_iff_safe (g : Game) (role : GameRole) (str : CString)
    : (ParsesAsDocumented g role str ↔ ParsesSafely g role str) ∧ ∀ move, ReadsBack g move :=
  ⟨parsesAsDocumented_iff, readsBack g⟩

/--
At the start of a game `5` is taken for a move of the second player, and `5<-Z` for a move of the
first.
-/
theorem not_parsesAsDocumented
    : ¬ ParsesAsDocumented gameCreate .secondPlayerRole [ascii '5']
        ∧ ¬ ParsesAsDocumented gameCreate .firstPlayerRole
          [ascii '5', ascii '<', ascii '-', ascii 'Z'] := by
  constructor
  . intro h
    have hmove := (h { move := 4, role := .secondPlayerRole }).mp (by decide)
    exact absurd hmove.2.1 (by decide)
  . intro h
    obtain ⟨htext, -, -⟩ := (h { move := 4, role := .firstPlayerRole }).mp (by decide)
    unfold MoveText at htext
    exact absurd htext (by decide)

end Jeux
