import Mathlib.Data.List.Basic

/-!
# Numerals in texts

A numeral to a base up to 16 is read back to its number, zeros in front or not, and holds
no character but its digits, so a text that puts a separator after it can be read in one
way only.
-/

namespace Lib
open Nat

/-- The digit of a character among `0` to `9` and `a` to `f`. -/
def digitValue (c : Char) : ℕ := if c.toNat < 58 then c.toNat - 48 else c.toNat - 87

/-- The number a list of digits stands for. -/
def numeralValue (b : ℕ) (cs : List Char) : ℕ := cs.foldl (fun n c => b * n + digitValue c) 0

theorem digitValue_digitChar : ∀ d < 16, digitValue (digitChar d) = d := by
  decide

theorem numeralValue_snoc (b : ℕ) (cs : List Char) (c : Char) :
    numeralValue b (cs ++ [c]) = b * numeralValue b cs + digitValue c := by
  unfold numeralValue
  rw [List.foldl_append]
  rfl

theorem numeralValue_zeros (b k : ℕ) (cs : List Char) :
    numeralValue b (List.replicate k '0' ++ cs) = numeralValue b cs := by
  induction k with
  | zero => rfl
  | succ k ih => exact ih

section Base
variable {b : ℕ}

theorem numeralValue_toDigits (hb : 1 < b) (hmax : b ≤ 16) (n : ℕ) :
    numeralValue b (toDigits b n) = n := by
  induction n using Nat.strongRecOn with
  | ind n ih =>
    have hdigit : n % b < 16 := Nat.lt_of_lt_of_le (Nat.mod_lt n (by omega)) hmax
    rw [toDigits_eq_if hb]
    split_ifs with hn
    · have hvalue := digitValue_digitChar n (by omega)
      show b * 0 + digitValue (digitChar n) = n
      rw [hvalue, Nat.mul_zero, Nat.zero_add]
    · have hdiv := ih (n / b) (Nat.div_lt_self (by omega) hb)
      rw [numeralValue_snoc, hdiv, digitValue_digitChar _ hdigit, Nat.div_add_mod]

theorem toDigits_injective (hb : 1 < b) (hmax : b ≤ 16) : Function.Injective (toDigits b) := by
  intro m n h
  rw [← numeralValue_toDigits hb hmax m, h, numeralValue_toDigits hb hmax n]

theorem leftpad_injective (hb : 1 < b) (hmax : b ≤ 16) (w : ℕ) :
    Function.Injective fun n => (toDigits b n).leftpad w '0' := by
  intro m n h
  have hvalue := congrArg (numeralValue b) h
  simp only [List.leftpad, numeralValue_zeros, numeralValue_toDigits hb hmax] at hvalue
  exact hvalue

theorem not_mem_toDigits (hb : 1 < b) (hmax : b ≤ 16) {c : Char} (hc : ∀ d < 16, digitChar d ≠ c)
    (n : ℕ) : c ∉ toDigits b n := by
  induction n using Nat.strongRecOn with
  | ind n ih =>
    rw [toDigits_eq_if hb]
    split_ifs with hn
    · intro h
      exact hc n (by omega) (List.mem_singleton.mp h).symm
    · intro h
      rcases List.mem_append.mp h with h | h
      · exact ih (n / b) (Nat.div_lt_self (by omega) hb) h
      · have hdigit := Nat.lt_of_lt_of_le (Nat.mod_lt n (by omega)) hmax
        exact hc (n % b) hdigit (List.mem_singleton.mp h).symm

end Base

theorem split_unique {α : Type} {c : α} {xs ys s t : List α} (hxs : c ∉ xs) (hys : c ∉ ys)
    (h : xs ++ c :: s = ys ++ c :: t) : xs = ys ∧ s = t := by
  induction xs generalizing ys with
  | nil =>
    cases ys with
    | nil => exact ⟨rfl, List.tail_eq_of_cons_eq h⟩
    | cons y ys => exact absurd (List.head_eq_of_cons_eq h ▸ List.mem_cons_self ..) hys
  | cons x xs ih =>
    cases ys with
    | nil => exact absurd (List.head_eq_of_cons_eq h ▸ List.mem_cons_self ..) hxs
    | cons y ys =>
      rw [List.cons_append, List.cons_append, List.cons.injEq] at h
      obtain ⟨rfl, h⟩ := h
      obtain ⟨rfl, hrest⟩ := ih (fun hc => hxs (List.mem_cons_of_mem _ hc))
        (fun hc => hys (List.mem_cons_of_mem _ hc)) h
      exact ⟨rfl, hrest⟩

theorem numeral_split {b : ℕ} (hb : 1 < b) (hmax : b ≤ 16) {c : Char}
    (hc : ∀ d < 16, digitChar d ≠ c) {m n : ℕ} {s t : List Char}
    (h : toDigits b m ++ c :: s = toDigits b n ++ c :: t) : m = n ∧ s = t := by
  obtain ⟨hnum, hrest⟩ :=
    split_unique (not_mem_toDigits hb hmax hc m) (not_mem_toDigits hb hmax hc n) h
  exact ⟨toDigits_injective hb hmax hnum, hrest⟩

end Lib
