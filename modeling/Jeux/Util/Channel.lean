import Mathlib.Algebra.Order.Group.Nat
import Mathlib.Data.List.Basic
import Mathlib.Data.List.Induction

/-!
Channels: numbers as bytes in network order, and lists that are moved in pieces. A transfer asks for
all that is left of a list, gets some of it, and asks again, until nothing is left or a request
gets nothing.
-/

/-! ## Network byte order -/

def bigEndian : Nat → Nat → List UInt8
  | 0, _ => []
  | width + 1, n => bigEndian width (n / 256) ++ [UInt8.ofNat n]

def ofBigEndian (bytes : List UInt8) : Nat :=
  bytes.foldl (fun n byte => n * 256 + byte.toNat) 0

@[simp]
theorem length_bigEndian (width n : Nat) : (bigEndian width n).length = width := by
  induction width generalizing n with
  | zero => rfl
  | succ width ih => simp [bigEndian, ih]

theorem ofBigEndian_bigEndian (width n : Nat)
    : ofBigEndian (bigEndian width n) = n % 256 ^ width := by
  induction width generalizing n with
  | zero => simp [bigEndian, ofBigEndian, Nat.mod_one]
  | succ width ih =>
    specialize ih (n / 256)
    unfold ofBigEndian at ih ⊢
    simp only [bigEndian, List.foldl_append, List.foldl_cons, List.foldl_nil, ih]
    rw [Nat.pow_succ', Nat.mod_mul, UInt8.toNat_ofNat']
    omega

theorem bigEndian_ofBigEndian (bytes : List UInt8)
    : bigEndian bytes.length (ofBigEndian bytes) = bytes := by
  induction bytes using List.reverseRecOn with
  | nil => rfl
  | append_singleton bytes byte ih =>
    have hvalue : ofBigEndian (bytes ++ [byte]) = ofBigEndian bytes * 256 + byte.toNat := by
      simp [ofBigEndian]
    have hlt := byte.toNat_lt
    have hdiv : (ofBigEndian bytes * 256 + byte.toNat) / 256 = ofBigEndian bytes := by omega
    have hbyte : UInt8.ofNat (ofBigEndian bytes * 256 + byte.toNat) = byte := by
      rw [← UInt8.toNat_inj, UInt8.toNat_ofNat']
      omega
    rw [List.length_append, List.length_singleton, hvalue, bigEndian, hdiv, ih, hbyte]

theorem ofBigEndian_lt (bytes : List UInt8) : ofBigEndian bytes < 256 ^ bytes.length := by
  induction bytes using List.reverseRecOn with
  | nil => simp [ofBigEndian]
  | append_singleton bytes byte ih =>
    have hvalue : ofBigEndian (bytes ++ [byte]) = ofBigEndian bytes * 256 + byte.toNat := by
      simp [ofBigEndian]
    have hlt := byte.toNat_lt
    rw [List.length_append, List.length_singleton, hvalue, Nat.pow_succ]
    omega

/-! ## Moving a list in pieces -/

abbrev Pieces := Nat → Nat → Int

/--
Every request moves something, and no more than it asked for.
-/
structure Pieces.Live (p : Pieces) : Prop where
  pos : ∀ k n, 0 < n → 0 < p k n
  le : ∀ k n, 0 < n → p k n ≤ n

/--
No request moves more than it asked for. It may fail.
-/
def Pieces.Bounded (p : Pieces) : Prop := ∀ k n, 0 < n → p k n ≤ n

theorem Pieces.Live.bounded {p : Pieces} (h : p.Live) : p.Bounded := h.le

structure Channel (α : Type) where
  items : List α
  calls : Nat

namespace Channel

variable {α : Type} {p : Pieces}

def put (p : Pieces) (buf : List α) (sent : Nat) (s : Channel α) : Bool × Channel α :=
  if sent < buf.length then
    let n := p s.calls (buf.length - sent)
    if n ≤ 0 then
      (false, { s with calls := s.calls + 1 })
    else
      put p buf (sent + n.toNat)
        { items := s.items ++ (buf.drop sent).take n.toNat, calls := s.calls + 1 }
  else
    (true, s)
termination_by buf.length - sent
decreasing_by omega

/--
Take elements from the channel until there are as many as wanted. A request gets nothing when it
fails, and when nothing is left on the channel.
-/
def get (p : Pieces) (want : Nat) (got : List α) (s : Channel α) : Option (List α) × Channel α :=
  if got.length < want then
    let n := min (p s.calls (want - got.length)) s.items.length
    if n ≤ 0 then
      (none, { s with calls := s.calls + 1 })
    else
      get p want (got ++ s.items.take n.toNat)
        { items := s.items.drop n.toNat, calls := s.calls + 1 }
  else
    (some got, s)
termination_by want - got.length
decreasing_by
  simp only [List.length_append, List.length_take]
  omega

theorem put_live (hp : p.Live) (buf : List α) (sent : Nat) (s : Channel α)
    : ∃ calls, put p buf sent s = (true, { items := s.items ++ buf.drop sent, calls := calls }) := by
  fun_induction put p buf sent s with
  | case1 sent s hlt n hn =>
    have hpos := hp.pos s.calls (buf.length - sent) (by omega)
    omega
  | case2 sent s hlt n hn ih =>
    obtain ⟨calls, ih⟩ := ih
    refine ⟨calls, ih.trans ?_⟩
    -- the rest of the buffer is the piece just moved and what comes after it
    rw [List.append_assoc, ← List.drop_drop, List.take_append_drop]
  | case3 sent s hge => exact ⟨s.calls, by rw [List.drop_eq_nil_of_le (by omega), List.append_nil]⟩

theorem get_live (hp : p.Live) (want : Nat) (got : List α) (s : Channel α) (hgot : got.length ≤ want)
    (henough : want ≤ got.length + s.items.length)
    : ∃ calls, get p want got s
        =
      (some (got ++ s.items.take (want - got.length)),
        { items := s.items.drop (want - got.length), calls := calls }) := by
  fun_induction get p want got s with
  | case1 got s hlt n hn =>
    have hpos := hp.pos s.calls (want - got.length) (by omega)
    omega
  | case2 got s hlt n hn ih =>
    have hle := hp.le s.calls (want - got.length) (by omega)
    have hlength : (s.items.take n.toNat).length = n.toNat := by
      rw [List.length_take]
      omega
    specialize ih (by rw [List.length_append]; omega)
      (by rw [List.length_append, List.length_drop]; omega)
    obtain ⟨calls, ih⟩ := ih
    refine ⟨calls, ih.trans ?_⟩
    have hsplit : want - got.length = n.toNat + (want - (got ++ s.items.take n.toNat).length) := by
      rw [List.length_append]
      omega
    dsimp only
    rw [hsplit, List.take_add, List.drop_drop, List.append_assoc]
  | case3 got s hge =>
    have hdone : want - got.length = 0 := by omega
    exact ⟨s.calls, by rw [hdone, List.take_zero, List.drop_zero, List.append_nil]⟩

theorem get_eq_some (hp : p.Bounded) {want : Nat} {got items : List α} {s s' : Channel α}
    (hgot : got.length ≤ want) (h : get p want got s = (some items, s'))
    : items = got ++ s.items.take (want - got.length) ∧ s'.items = s.items.drop (want - got.length)
        ∧ want ≤ got.length + s.items.length := by
  fun_induction get p want got s with
  | case1 got s hlt n hn => simp at h
  | case2 got s hlt n hn ih =>
    have hle := hp s.calls (want - got.length) (by omega)
    have hlength : (s.items.take n.toNat).length = n.toNat := by
      rw [List.length_take]
      omega
    obtain ⟨hitems, hrest, henough⟩ := ih (by rw [List.length_append]; omega) h
    have hsplit : want - got.length = n.toNat + (want - (got ++ s.items.take n.toNat).length) := by
      rw [List.length_append]
      omega
    dsimp only at hitems hrest henough
    rw [List.length_append, List.length_drop] at henough
    refine ⟨?_, ?_, by omega⟩
    . rw [hitems, hsplit, List.take_add, List.append_assoc]
    . rw [hrest, hsplit, List.drop_drop]
  | case3 got s hge =>
    have hdone : want - got.length = 0 := by omega
    obtain ⟨rfl, rfl⟩ : got = items ∧ s = s' := by simpa using h
    exact ⟨by simp [hdone], by simp [hdone], by omega⟩

theorem get_short (p : Pieces) (want : Nat) (got : List α) (s : Channel α)
    (hshort : got.length + s.items.length < want) : (get p want got s).1 = none := by
  fun_induction get p want got s with
  | case1 got s hlt n hn => rfl
  | case2 got s hlt n hn ih =>
    apply ih
    simp only [List.length_append, List.length_take, List.length_drop]
    omega
  | case3 got s hge => omega

end Channel
