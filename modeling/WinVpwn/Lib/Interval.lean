import Mathlib.Order.CompletePartialOrder
import Mathlib.Order.Interval.Set.Disjoint

/-!
# Half-open ranges of addresses and pages

Ranges given by a base and a size, when two of them meet, and the rounding of
their ends to multiples of a page size.
-/

namespace Lib

def span (base size : ℕ) : Set ℕ := Set.Ico base (base + size)

theorem mem_span {base size a : ℕ} : a ∈ span base size ↔ base ≤ a ∧ a < base + size := Iff.rfl

instance (base size a : ℕ) : Decidable (a ∈ span base size) :=
  inferInstanceAs (Decidable (base ≤ a ∧ a < base + size))

theorem disjoint_span_iff {a m b n : ℕ} :
    Disjoint (span a m) (span b n) ↔ m = 0 ∨ n = 0 ∨ a + m ≤ b ∨ b + n ≤ a := by
  rw [span, span, Set.Ico_disjoint_Ico]
  omega

theorem not_disjoint_span_iff {a m b n : ℕ} (hm : 0 < m) (hn : 0 < n) :
    ¬Disjoint (span a m) (span b n) ↔ a < b + n ∧ b < a + m := by
  rw [disjoint_span_iff]
  omega

/- In a list sorted by base, ranges that are disjoint and not empty lie one after
the other. -/
theorem pairwise_separated {ι : Type} (lo size : ι → ℕ) (l : List ι)
    (hpos : ∀ x ∈ l, 0 < size x) (hsort : l.Pairwise fun x y => lo x ≤ lo y)
    (hdisj : l.Pairwise fun x y => Disjoint (span (lo x) (size x)) (span (lo y) (size y))) :
    l.Pairwise fun x y => lo x + size x ≤ lo y := by
  apply (hsort.and hdisj).imp_of_mem
  intro x y hx hy h
  have hxp := hpos x hx
  have hyp := hpos y hy
  have hd := disjoint_span_iff.mp h.2
  have hle := h.1
  omega

/-! ### Pages -/

def pageDown (p a : ℕ) : ℕ := a / p * p

/-- The first page boundary at or above `a`. -/
def pageUp (p a : ℕ) : ℕ := (a + (p - 1)) / p * p

theorem pageDown_le (p a : ℕ) : pageDown p a ≤ a := Nat.div_mul_le_self a p

theorem dvd_pageDown (p a : ℕ) : p ∣ pageDown p a := Nat.dvd_mul_left p _

theorem dvd_pageUp (p a : ℕ) : p ∣ pageUp p a := Nat.dvd_mul_left p _

theorem le_pageUp {p : ℕ} (hp : 0 < p) (a : ℕ) : a ≤ pageUp p a := by
  have h := Nat.lt_div_mul_add hp (a := a + (p - 1))
  unfold pageUp
  omega

theorem pageUp_lt {p : ℕ} (hp : 0 < p) (a : ℕ) : pageUp p a < a + p := by
  have h := Nat.div_mul_le_self (a + (p - 1)) p
  unfold pageUp
  omega

theorem lt_pageDown_add {p : ℕ} (hp : 0 < p) (a : ℕ) : a < pageDown p a + p :=
  Nat.lt_div_mul_add hp

theorem isGreatest_pageDown {p : ℕ} (hp : 0 < p) (a : ℕ) :
    IsGreatest {m | p ∣ m ∧ m ≤ a} (pageDown p a) := by
  refine ⟨⟨dvd_pageDown p a, pageDown_le p a⟩, ?_⟩
  intro m hm
  obtain ⟨⟨q, rfl⟩, hle⟩ := hm
  have hq : q ≤ a / p := (Nat.le_div_iff_mul_le hp).mpr (by rwa [Nat.mul_comm])
  unfold pageDown
  rw [Nat.mul_comm p q]
  exact Nat.mul_le_mul_right p hq

theorem isLeast_pageUp {p : ℕ} (hp : 0 < p) (a : ℕ) :
    IsLeast {m | p ∣ m ∧ a ≤ m} (pageUp p a) := by
  refine ⟨⟨dvd_pageUp p a, le_pageUp hp a⟩, ?_⟩
  intro m hm
  obtain ⟨⟨q, rfl⟩, hle⟩ := hm
  have hq : (a + (p - 1)) / p < q + 1 := by
    rw [Nat.div_lt_iff_lt_mul hp, Nat.add_mul, Nat.one_mul, Nat.mul_comm q p]
    omega
  unfold pageUp
  rw [Nat.mul_comm p q]
  exact Nat.mul_le_mul_right p (Nat.lt_succ_iff.mp hq)

theorem pageDown_lt_pageUp_iff {p : ℕ} (hp : 0 < p) (a c : ℕ) :
    pageDown p a < pageUp p c ↔ pageDown p a < c := by
  constructor
  · intro h
    by_contra hle
    have hup := (isLeast_pageUp hp c).2 ⟨dvd_pageDown p a, Nat.not_lt.mp hle⟩
    omega
  · intro h
    exact h.trans_le (le_pageUp hp c)

theorem shares_page_of_le {p a m b n : ℕ} (hp : 0 < p) (hn : 0 < n) (hab : a / p ≤ b / p)
    (h : pageDown p b < a + m) (hm : 0 < m) :
    ∃ k, (∃ x ∈ span a m, x / p = k) ∧ ∃ y ∈ span b n, y / p = k := by
  refine ⟨b / p, ⟨max a (pageDown p b), ?_, ?_⟩, b, ⟨le_refl b, by omega⟩, rfl⟩
  · rw [mem_span]
    omega
  · apply le_antisymm
    · rcases max_choice a (pageDown p b) with hmax | hmax
      · rw [hmax]
        exact hab
      · rw [hmax, pageDown, Nat.mul_div_cancel _ hp]
    · rw [Nat.le_div_iff_mul_le hp]
      exact le_max_right a (pageDown p b)

/-- Rounded to pages, two ranges that are not empty meet exactly when some page holds an
element of both. -/
theorem shares_page_iff {p a m b n : ℕ} (hp : 0 < p) (hm : 0 < m) (hn : 0 < n) :
    (∃ k, (∃ x ∈ span a m, x / p = k) ∧ ∃ y ∈ span b n, y / p = k) ↔
      pageDown p a < pageUp p (b + n) ∧ pageDown p b < pageUp p (a + m) := by
  rw [pageDown_lt_pageUp_iff hp, pageDown_lt_pageUp_iff hp]
  constructor
  · intro h
    obtain ⟨k, ⟨x, hx, hxk⟩, y, hy, hyk⟩ := h
    rw [mem_span] at hx hy
    have hsame : pageDown p x = pageDown p y := by
      unfold pageDown
      rw [hxk, hyk]
    have hax : pageDown p a ≤ pageDown p x := Nat.mul_le_mul_right p (Nat.div_le_div_right hx.1)
    have hby : pageDown p b ≤ pageDown p y := Nat.mul_le_mul_right p (Nat.div_le_div_right hy.1)
    have hxle := pageDown_le p x
    have hyle := pageDown_le p y
    omega
  · intro h
    obtain ⟨hab, hba⟩ := h
    rcases Nat.le_total (a / p) (b / p) with hle | hle
    · exact shares_page_of_le hp hn hle hba hm
    · obtain ⟨k, hy, hx⟩ := shares_page_of_le hp hm hle hab hn
      exact ⟨k, hx, hy⟩

end Lib
