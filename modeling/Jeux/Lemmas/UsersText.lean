import Jeux.Lemmas.Requests

/-!
The text that `process_users` sends: what a line of it tells, and what a list of lines does.
-/

namespace Jeux

theorem append_separator_inj {α : Type} {sep : α} {x x' t t' : List α} (hx : sep ∉ x)
    (hx' : sep ∉ x') (h : x ++ sep :: t = x' ++ sep :: t') : x = x' ∧ t = t' := by
  induction x generalizing x' with
  | nil =>
    cases x' with
    | nil => exact ⟨rfl, (List.cons.inj h).2⟩
    | cons b x' => exact absurd ((List.cons.inj h).1 ▸ List.mem_cons_self ..) hx'
  | cons a x ih =>
    cases x' with
    | nil => exact absurd ((List.cons.inj h).1 ▸ List.mem_cons_self ..) hx
    | cons b x' =>
      rw [List.cons_append, List.cons_append, List.cons.injEq] at h
      have ⟨heq, ht⟩ := ih (List.not_mem_of_not_mem_cons hx) (List.not_mem_of_not_mem_cons hx') h.2
      exact ⟨by rw [h.1, heq], ht⟩

/-! ## Numbers -/

theorem ascii_toNat {ch : Char} (h : ch.isDigit) : (ascii ch).toNat = ch.toNat := by
  have hlt : ch.toNat < 256 := by
    simp only [Char.isDigit, Bool.and_eq_true, decide_eq_true_eq] at h
    have hle : ch.val.toNat ≤ 57 := h.2
    have : ch.val.toNat = ch.toNat := rfl
    omega
  simp only [ascii, Nat.toUInt8, UInt32.toUInt8]
  change ch.val.toNat % 256 = ch.toNat
  exact Nat.mod_eq_of_lt hlt

theorem mem_digits {n : Nat} {b : Byte} (h : b ∈ (Nat.toDigits 10 n).map ascii)
    : 48 ≤ b.toNat ∧ b.toNat ≤ 57 := by
  obtain ⟨ch, hmem, rfl⟩ := List.mem_map.mp h
  have hdigit := Nat.isDigit_of_mem_toDigits (by decide) (by decide) hmem
  rw [ascii_toNat hdigit]
  simp only [Char.isDigit, Bool.and_eq_true, decide_eq_true_eq] at hdigit
  exact hdigit

theorem mem_decimal {n : Int} {b : Byte} (h : b ∈ decimal n) : b = 45 ∨ 48 ≤ b.toNat := by
  unfold decimal at h
  dsimp only at h
  split at h
  . rw [List.mem_cons] at h
    cases h with
    | inl hminus => exact .inl hminus
    | inr hdigit => exact .inr (mem_digits hdigit).1
  . exact .inr (mem_digits h).1

theorem not_mem_decimal {n : Int} {b : Byte} (h : b.toNat < 45) : b ∉ decimal n := by
  intro hmem
  rcases mem_decimal hmem with rfl | hle
  . exact absurd h (by decide)
  . omega

theorem digits_read (n : Nat)
    : ((Nat.toDigits 10 n).map ascii).map (fun b => Char.ofNat b.toNat) = Nat.toDigits 10 n := by
  rw [List.map_map]
  conv_rhs => rw [← List.map_id (Nat.toDigits 10 n)]
  apply List.map_congr_left
  intro ch hmem
  have hdigit := Nat.isDigit_of_mem_toDigits (by decide) (by decide) hmem
  rw [Function.comp_apply, ascii_toNat hdigit, Char.ofNat_toNat]
  rfl

theorem digits_inj {n n' : Nat}
    (h : (Nat.toDigits 10 n).map ascii = (Nat.toDigits 10 n').map ascii) : n = n' := by
  have heq : Nat.toDigits 10 n = Nat.toDigits 10 n' := by
    rw [← digits_read n, h, digits_read]
  rw [← Nat.ofDigitChars_ten_toDigits (n := n), heq, Nat.ofDigitChars_ten_toDigits]

theorem decimal_inj {n n' : Int} (h : decimal n = decimal n') : n = n' := by
  have hminus : ∀ m : Nat, ∀ rest, (Nat.toDigits 10 m).map ascii ≠ ascii '-' :: rest := by
    intro m rest heq
    have := (mem_digits (n := m) (heq ▸ List.mem_cons_self ..)).1
    exact absurd this (by decide)
  unfold decimal at h
  dsimp only at h
  split at h
  . next hneg =>
    split at h
    . next hneg' =>
      have := digits_inj (List.cons.inj h).2
      omega
    . exact absurd h.symm (hminus _ _)
  . split at h
    . exact absurd h (hminus _ _)
    . have := digits_inj h
      omega

theorem length_decimal_le_four (n : Int) : (decimal n).length ≤ 4 ↔ -999 ≤ n ∧ n ≤ 9999 := by
  unfold decimal
  dsimp only
  split
  . rw [List.length_cons, List.length_map]
    have := Nat.length_toDigits_le_iff (b := 10) (n := n.natAbs) (k := 3) (by decide) (by decide)
    omega
  . rw [List.length_map]
    have := Nat.length_toDigits_le_iff (b := 10) (n := n.natAbs) (k := 4) (by decide) (by decide)
    omega

/-! ## Lines -/

variable {name name' x y : CString} {rating rating' : Int}

theorem length_usersLine (name : CString) (rating : Int)
    : (usersLine name rating).length = name.length + (decimal rating).length + 2 := by
  simp only [usersLine, List.length_append, List.length_cons, List.length_nil]
  omega

theorem usersLine_fits
    : (usersLine name rating).length + 1 ≤ usersLineRoom name ↔ -999 ≤ rating ∧ rating ≤ 9999 := by
  rw [length_usersLine, ← length_decimal_le_four]
  unfold usersLineRoom
  omega

theorem usersLine_ne_nil : usersLine name rating ≠ [] := by
  simp [usersLine]

theorem usersLine_append (x name : CString) (rating : Int)
    : usersLine (x ++ name) rating = x ++ usersLine name rating := by
  simp only [usersLine, List.append_assoc]

/--
A line tells the name and the rating: the last tab is the one in front of the number.
-/
theorem usersLine_inj (h : usersLine name rating = usersLine name' rating')
    : name = name' ∧ rating = rating' := by
  have htab : ∀ n, (9 : Byte) ∉ decimal n := fun n => not_mem_decimal (by decide)
  have hfront : name ++ ascii '\t' :: decimal rating = name' ++ ascii '\t' :: decimal rating' := by
    refine List.append_cancel_right (?_ : _ ++ [ascii '\n'] = _ ++ [ascii '\n'])
    simpa [usersLine] using h
  have hback := congrArg List.reverse hfront
  rw [List.reverse_append, List.reverse_append, List.reverse_cons, List.reverse_cons,
    List.append_assoc, List.append_assoc, List.singleton_append, List.singleton_append] at hback
  obtain ⟨hnumber, hname⟩ := append_separator_inj (by rw [List.mem_reverse]; exact htab rating)
    (by rw [List.mem_reverse]; exact htab rating') hback
  exact ⟨List.reverse_inj.mp hname, decimal_inj (List.reverse_inj.mp hnumber)⟩

theorem not_mem_usersLine {b : Byte} (hb : b.toNat < 9) (hname : b ∉ name)
    : b ∉ usersLine name rating := by
  have hne : ∀ b' : Byte, 9 ≤ b'.toNat → b ≠ b' := by
    rintro b' hle rfl
    omega
  simp only [usersLine, List.mem_append, List.mem_singleton, not_or]
  exact ⟨⟨⟨hname, hne _ (by decide)⟩, not_mem_decimal (by omega)⟩, hne _ (by decide)⟩

/-! ## Lists -/

def listing (pairs : List (CString × Int)) : CString :=
  pairs.flatMap fun p => usersLine p.1 p.2

/--
What an `int` of 32 bits can hold, and so what `%d` prints.
-/
def IsInt (rating : Int) : Prop :=
  -2147483648 ≤ rating ∧ rating ≤ 2147483647

instance (rating : Int) : Decidable (IsInt rating) :=
  inferInstanceAs (Decidable (_ ∧ _))

/--
A name that can be taken for a line and another name.
-/
def Splits (name : CString) : Prop :=
  ∃ x rating y, IsInt rating ∧ x ≠ [] ∧ y ≠ [] ∧ x ≠ y ∧ name = usersLine x rating ++ y

variable {pairs pairs' init : List (CString × Int)}

@[simp]
theorem listing_nil : listing [] = [] := rfl

@[simp]
theorem listing_cons (p : CString × Int) (pairs : List (CString × Int))
    : listing (p :: pairs) = usersLine p.1 p.2 ++ listing pairs := rfl

/--
What is in front of the last name could as well be a part of it.
-/
theorem listing_concat (init : List (CString × Int)) (name : CString) (rating : Int)
    : listing (init ++ [(name, rating)]) = usersLine (listing init ++ name) rating := by
  unfold listing
  rw [List.flatMap_append, usersLine_append]
  simp

theorem length_listing (pairs : List (CString × Int))
    : (listing pairs).length
        =
      (pairs.map fun p => p.1.length + (decimal p.2).length + 2).sum := by
  simp only [listing, List.length_flatMap, length_usersLine]

theorem not_mem_listing {b : Byte} (hb : b.toNat < 9) (hnames : ∀ p ∈ pairs, b ∉ p.1)
    : b ∉ listing pairs := by
  unfold listing
  rw [List.mem_flatMap]
  rintro ⟨p, hp, hmem⟩
  exact not_mem_usersLine hb (hnames p hp) hmem

theorem usersLine_eq (name : CString) (rating : Int)
    : usersLine name rating = (name ++ ascii '\t' :: decimal rating) ++ [ascii '\n'] := by
  simp [usersLine]

theorem newline_not_mem (hname : (10 : Byte) ∉ name)
    : (10 : Byte) ∉ name ++ ascii '\t' :: decimal rating := by
  simp only [List.mem_append, List.mem_cons, not_or]
  exact ⟨hname, by decide, not_mem_decimal (by decide)⟩

theorem listing_inj (hno : ∀ p ∈ pairs, (10 : Byte) ∉ p.1) (hno' : ∀ p ∈ pairs', (10 : Byte) ∉ p.1)
    (h : listing pairs = listing pairs') : pairs = pairs' := by
  induction pairs generalizing pairs' with
  | nil =>
    cases pairs' with
    | nil => rfl
    | cons p' pairs' =>
      rw [listing_nil, listing_cons] at h
      exact absurd (List.append_eq_nil_iff.mp h.symm).1 usersLine_ne_nil
  | cons p pairs ih =>
    cases pairs' with
    | nil =>
      rw [listing_nil, listing_cons] at h
      exact absurd (List.append_eq_nil_iff.mp h).1 usersLine_ne_nil
    | cons p' pairs' =>
      rw [listing_cons, listing_cons, usersLine_eq, usersLine_eq, List.append_assoc _ [_],
        List.append_assoc _ [_], List.singleton_append, List.singleton_append] at h
      have ⟨hline, hrest⟩ := append_separator_inj
        (newline_not_mem (hno p (List.mem_cons_self ..)))
        (newline_not_mem (hno' p' (List.mem_cons_self ..))) h
      have ⟨hname, hrating⟩ : p.1 = p'.1 ∧ p.2 = p'.2 := by
        apply usersLine_inj
        rw [usersLine_eq, usersLine_eq, hline]
      rw [ih (fun q hq => hno q (List.mem_cons_of_mem _ hq))
        (fun q hq => hno' q (List.mem_cons_of_mem _ hq)) hrest, Prod.ext hname hrating]

theorem eq_singleton_of_not_splits (hsplits : ¬ Splits name) (hnonempty : ∀ p ∈ pairs, p.1 ≠ [])
    (hint : ∀ p ∈ pairs, IsInt p.2) (hnodup : (pairs.map (·.1)).Nodup)
    (h : listing pairs = usersLine name rating)
    : pairs = [(name, rating)] := by
  rcases pairs.eq_nil_or_concat' with rfl | ⟨init, ⟨last, number⟩, rfl⟩
  . exact absurd h.symm usersLine_ne_nil
  . rw [listing_concat] at h
    have ⟨hname, hrating⟩ := usersLine_inj h
    subst hname hrating
    cases init with
    | nil => rfl
    | cons p rest =>
      refine absurd ?_ hsplits
      have hlast := hnonempty (last, number) (by simp)
      by_cases heq : p.1 = listing rest ++ last
      . -- the first name would be all of the others, so there are others, and the last is shorter
        rcases rest.eq_nil_or_concat' with rfl | ⟨rest, ⟨z, number'⟩, rfl⟩
        . simp [heq] at hnodup
        . refine ⟨listing (p :: rest) ++ z, number', last, hint (z, number') (by simp), ?_, hlast,
            ?_, ?_⟩
          . simp [usersLine_ne_nil]
          . intro hsame
            have hlen := congrArg List.length hsame
            have hlen' := congrArg List.length heq
            simp only [listing_cons, List.length_append, length_usersLine] at hlen hlen'
            omega
          . rw [← List.cons_append, listing_concat]
      . refine ⟨p.1, p.2, listing rest ++ last, hint p (by simp), hnonempty p (by simp), ?_, heq,
          ?_⟩
        . simp [hlast]
        . rw [listing_cons, List.append_assoc]

end Jeux
