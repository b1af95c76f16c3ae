import Mathlib.Data.BitVec
import Mathlib.Data.Nat.Bitwise
import Mathlib.Order.Lattice
import Mathlib.Tactic.NormNum
import WinVpwn.Rust.Outcome

/-!
# Machine words, buffers and slices

Fixed-width words with the arithmetic of the two build profiles, and the
operations on byte buffers that can panic. A host is taken to be 64-bit, so a
`usize` is a natural number below `2^64` and `as usize` loses nothing.
-/

namespace Rust

abbrev U8 := BitVec 8
abbrev U16 := BitVec 16
abbrev U32 := BitVec 32
abbrev U64 := BitVec 64

section Order
variable {w : ℕ}

/-- Words are ordered as unsigned numbers. -/
instance wordOrder : LinearOrder (BitVec w) where
  le_refl x := Nat.le_refl x.toNat
  le_trans _ _ _ h k := Nat.le_trans h k
  le_antisymm _ _ h k := BitVec.eq_of_toNat_eq (Nat.le_antisymm h k)
  le_total x y := Nat.le_total x.toNat y.toNat
  lt_iff_le_not_ge x y := Nat.lt_iff_le_and_not_ge (m := x.toNat)
  toDecidableLE := inferInstance
  toDecidableLT := inferInstance
  toDecidableEq := inferInstance

theorem toNat_max (x y : BitVec w) : (max x y).toNat = max x.toNat y.toNat := by
  rcases le_total x y with h | h
  · rw [max_eq_right h, max_eq_right (show x.toNat ≤ y.toNat from h)]
  · rw [max_eq_left h, max_eq_left (show y.toNat ≤ x.toNat from h)]

end Order

/-! ### Arithmetic -/

/-- The two build profiles: a debug build panics where a word operation
overflows, a release build wraps. -/
inductive Build where
  | debug
  | release
  deriving DecidableEq, Repr

section Arithmetic
variable {w : ℕ} {ε : Type}

/-- `x + y`. -/
def Build.add (b : Build) (x y : BitVec w) : Outcome ε (BitVec w) :=
  match b with
  | .debug => if x.toNat + y.toNat < 2 ^ w then .ok (x + y) else .fault .overflow
  | .release => .ok (x + y)

/-- `x - y`. -/
def Build.sub (b : Build) (x y : BitVec w) : Outcome ε (BitVec w) :=
  match b with
  | .debug => if y.toNat ≤ x.toNat then .ok (x - y) else .fault .overflow
  | .release => .ok (x - y)

theorem Build.errorless_add (b : Build) (x y : BitVec w) :
    (b.add x y : Outcome ε (BitVec w)).Errorless := by
  intro e h
  cases b with
  | debug =>
    simp only [Build.add] at h
    split at h
    · cases h
    · cases h
  | release => cases h

theorem Build.errorless_sub (b : Build) (x y : BitVec w) :
    (b.sub x y : Outcome ε (BitVec w)).Errorless := by
  intro e h
  cases b with
  | debug =>
    simp only [Build.sub] at h
    split at h
    · cases h
    · cases h
  | release => cases h

theorem Build.eq_of_sub_eq_ok {b : Build} {x y z : BitVec w}
    (h : (b.sub x y : Outcome ε (BitVec w)) = .ok z) : z = x - y := by
  cases b with
  | debug =>
    simp only [Build.sub] at h
    split at h
    · cases h
      rfl
    · cases h
  | release =>
    cases h
    rfl

/-- `x.checked_add(y)`. -/
def checkedAdd (x y : BitVec w) : Option (BitVec w) :=
  if x.toNat + y.toNat < 2 ^ w then some (x + y) else none

theorem toNat_add_of_lt (x y : BitVec w) (h : x.toNat + y.toNat < 2 ^ w) :
    (x + y).toNat = x.toNat + y.toNat := by
  rw [BitVec.toNat_add, Nat.mod_eq_of_lt h]

theorem toNat_add_ofNat (x : BitVec w) (n : ℕ) :
    (x + BitVec.ofNat w n).toNat = (x.toNat + n) % 2 ^ w := by
  rw [BitVec.toNat_add, BitVec.toNat_ofNat, Nat.add_mod_mod]

theorem toNat_add_ofNat_of_lt (x : BitVec w) (n : ℕ) (h : x.toNat + n < 2 ^ w) :
    (x + BitVec.ofNat w n).toNat = x.toNat + n := by
  rw [toNat_add_ofNat, Nat.mod_eq_of_lt h]

theorem toNat_sub_of_le (x y : BitVec w) (h : y.toNat ≤ x.toNat) :
    (x - y).toNat = x.toNat - y.toNat :=
  BitVec.toNat_sub_of_le h

theorem Build.add_eq_of (b : Build) (x y : BitVec w) (h : b = .debug → x.toNat + y.toNat < 2 ^ w) :
    (b.add x y : Outcome ε (BitVec w)) = .ok (x + y) := by
  cases b with
  | debug => simp only [Build.add, if_pos (h rfl)]
  | release => rfl

theorem Build.sub_eq_of (b : Build) (x y : BitVec w) (h : b = .debug → y.toNat ≤ x.toNat) :
    (b.sub x y : Outcome ε (BitVec w)) = .ok (x - y) := by
  cases b with
  | debug => simp only [Build.sub, if_pos (h rfl)]
  | release => rfl

theorem Build.add_eq (b : Build) (x y : BitVec w) (h : x.toNat + y.toNat < 2 ^ w) :
    (b.add x y : Outcome ε (BitVec w)) = .ok (x + y) := b.add_eq_of x y fun _ => h

theorem Build.add_ofNat_eq (b : Build) (x : BitVec w) (n : ℕ) (h : x.toNat + n < 2 ^ w) :
    (b.add x (BitVec.ofNat w n) : Outcome ε (BitVec w)) = .ok (x + BitVec.ofNat w n) := by
  have hle : (BitVec.ofNat w n).toNat ≤ n := by
    rw [BitVec.toNat_ofNat]
    exact Nat.mod_le n _
  exact b.add_eq _ _ ((Nat.add_le_add_left hle _).trans_lt h)

theorem Build.sub_eq (b : Build) (x y : BitVec w) (h : y.toNat ≤ x.toNat) :
    (b.sub x y : Outcome ε (BitVec w)) = .ok (x - y) := b.sub_eq_of x y fun _ => h

theorem Build.add_cases {ε : Type} (b : Build) (x y : BitVec w) :
    (b.add x y : Outcome ε (BitVec w)) = .ok (x + y) ∨
      (b.add x y : Outcome ε (BitVec w)) = .fault .overflow := by
  cases b with
  | debug =>
    unfold Build.add
    split_ifs
    · exact Or.inl rfl
    · exact Or.inr rfl
  | release => exact Or.inl rfl

theorem toNat_and_not_mask (x m : BitVec w) (k : ℕ) (hm : m.toNat = 2 ^ k - 1) :
    (x &&& ~~~m).toNat = x.toNat / 2 ^ k * 2 ^ k := by
  apply Nat.eq_of_testBit_eq
  intro i
  have hmask : m.getLsbD i = decide (i < k) := by
    rw [← BitVec.testBit_toNat, hm, Nat.testBit_two_pow_sub_one]
  rw [BitVec.testBit_toNat, BitVec.getLsbD_and, BitVec.getLsbD_not, hmask,
    Nat.testBit_mul_two_pow, Nat.testBit_div_two_pow, BitVec.testBit_toNat]
  rcases Nat.lt_or_ge i k with hi | hi
  · simp [hi, Nat.not_le.mpr hi]
  · rw [Nat.sub_add_cancel hi]
    by_cases hw : i < w
    · simp [hi, hw, Nat.not_lt.mpr hi]
    · simp [BitVec.getLsbD_of_ge x i (Nat.not_lt.mp hw)]

end Arithmetic

/-! ### Buffers

`Vec` refuses a request of more than `isize::MAX` bytes with a panic. Memory
that runs out below that bound is not part of the model. -/

/-- `isize::MAX` on a 64-bit host. -/
def isizeMax : ℕ := 2 ^ 63 - 1

section Buffers
variable {ε α : Type}

/-- The capacity check of an allocation of `n` bytes. -/
def reserve (n : ℕ) : Outcome ε Unit := if n ≤ isizeMax then .ok () else .fault .capacity

/-- `vec![0u8; n]`. -/
def zeroed (n : ℕ) : Outcome ε (List U8) := do
  reserve n
  return List.replicate n 0

/-- `&xs[i..j]`. -/
def slice (xs : List α) (i j : ℕ) : Outcome ε (List α) :=
  if i ≤ j ∧ j ≤ xs.length then .ok ((xs.drop i).take (j - i)) else .fault .slice

/-- `xs[i..i + ys.len()].copy_from_slice(ys)`. -/
def copyInto (xs : List α) (i : ℕ) (ys : List α) : Outcome ε (List α) :=
  if i + ys.length ≤ xs.length then .ok (xs.take i ++ ys ++ xs.drop (i + ys.length))
  else .fault .slice

/-- The buffer after `ys` was copied over `xs` at `i`. -/
def patch (xs : List α) (i : ℕ) (ys : List α) : List α := xs.take i ++ ys ++ xs.drop (i + ys.length)

theorem length_patch {xs : List α} {i : ℕ} {ys : List α} (h : i + ys.length ≤ xs.length) :
    (patch xs i ys).length = xs.length := by
  unfold patch
  simp only [List.length_append, List.length_take, List.length_drop]
  omega

theorem getElem?_patch {xs : List α} {i : ℕ} {ys : List α} (h : i + ys.length ≤ xs.length) (j : ℕ) :
    (patch xs i ys)[j]? = if i ≤ j ∧ j < i + ys.length then ys[j - i]? else xs[j]? := by
  have htake : (xs.take i).length = i := by
    rw [List.length_take]
    omega
  have hhead : (xs.take i ++ ys).length = i + ys.length := by
    rw [List.length_append, htake]
  unfold patch
  rcases Nat.lt_or_ge j (i + ys.length) with hj | hj
  · rw [List.getElem?_append_left (by omega)]
    rcases Nat.lt_or_ge j i with hlt | hge
    · rw [if_neg (by omega), List.getElem?_append_left (by omega), List.getElem?_take_of_lt hlt]
    · rw [if_pos ⟨hge, hj⟩, List.getElem?_append_right (by omega), htake]
  · rw [if_neg (by omega), List.getElem?_append_right (by omega), hhead, List.getElem?_drop,
      Nat.add_sub_cancel' hj]

theorem patch_self (xs : List α) (i n : ℕ) : patch xs i ((xs.drop i).take n) = xs := by
  have hdrop : (xs.drop i).drop ((xs.drop i).take n).length = (xs.drop i).drop n := by
    rw [List.length_take, List.drop_eq_drop_iff]
    omega
  unfold patch
  rw [← List.drop_drop, hdrop, List.append_assoc, List.take_append_drop, List.take_append_drop]

theorem reserve_eq (n : ℕ) (h : n ≤ isizeMax) : (reserve n : Outcome ε Unit) = .ok () :=
  if_pos h

theorem zeroed_eq (n : ℕ) (h : n ≤ isizeMax) :
    (zeroed n : Outcome ε (List U8)) = .ok (List.replicate n 0) := by
  rw [zeroed, reserve_eq n h]
  rfl

theorem slice_eq (xs : List α) (i j : ℕ) (hij : i ≤ j) (hj : j ≤ xs.length) :
    (slice xs i j : Outcome ε (List α)) = .ok ((xs.drop i).take (j - i)) :=
  if_pos ⟨hij, hj⟩

theorem errorless_slice (xs : List α) (i j : ℕ) : (slice xs i j : Outcome ε (List α)).Errorless := by
  intro e h
  unfold slice at h
  split at h
  · cases h
  · cases h

theorem copyInto_eq (xs : List α) (i : ℕ) (ys : List α) (h : i + ys.length ≤ xs.length) :
    (copyInto xs i ys : Outcome ε (List α)) =
      .ok (xs.take i ++ ys ++ xs.drop (i + ys.length)) :=
  if_pos h

end Buffers

end Rust
