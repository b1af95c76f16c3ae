import Mathlib.Data.List.GetD
import WinVpwn.Lib.AddressSpace

/-!
# Flat byte memories

What every address holds, or nothing where nothing is mapped. A buffer is read
off a range, a range is covered or has a first gap, and a write replaces a range.
-/

namespace Lib

abbrev FlatMemory (β : Type) := ℕ → Option β

namespace FlatMemory
variable {β : Type} (f : FlatMemory β)

/-- The range at `a` holds the bytes `bs`. -/
def Holds (a : ℕ) (bs : List β) : Prop := ∀ i < bs.length, f (a + i) = bs[i]?

def Covers (a n : ℕ) : Prop := ∀ x ∈ span a n, f x ≠ none

/-- `g` is the first address of the range that is not mapped. -/
structure FirstGap (a n g : ℕ) : Prop where
  inside : g ∈ span a n
  gap : f g = none
  before : Covers f a (g - a)

def fill (base n : ℕ) (x : β) : FlatMemory β := fun a => if a ∈ span base n then some x else f a

def write (addr : ℕ) (data : List β) : FlatMemory β :=
  fun a => if a ∈ span addr data.length then data[a - addr]? else f a

/-! ### Reading a range -/

variable {f}

theorem holds_nil (a : ℕ) : f.Holds a [] := by
  intro i hi
  cases hi

theorem holds_append (a : ℕ) (bs cs : List β) :
    f.Holds a (bs ++ cs) ↔ f.Holds a bs ∧ f.Holds (a + bs.length) cs := by
  constructor
  · intro h
    constructor
    · intro i hi
      rw [h i (by rw [List.length_append]; omega), List.getElem?_append_left hi]
    · intro i hi
      have hnext := h (bs.length + i) (by rw [List.length_append]; omega)
      rw [List.getElem?_append_right (Nat.le_add_right ..), Nat.add_sub_cancel_left] at hnext
      rw [Nat.add_assoc]
      exact hnext
  · intro h
    obtain ⟨hbs, hcs⟩ := h
    intro i hi
    rw [List.length_append] at hi
    rcases Nat.lt_or_ge i bs.length with hlt | hge
    · rw [List.getElem?_append_left hlt]
      exact hbs i hlt
    · rw [List.getElem?_append_right hge, ← hcs (i - bs.length) (by omega), Nat.add_assoc,
        Nat.add_sub_cancel' hge]

theorem Holds.covers {a : ℕ} {bs : List β} (h : f.Holds a bs) : f.Covers a bs.length := by
  intro x hx
  rw [mem_span] at hx
  have hi : x - a < bs.length := by omega
  have hread := h (x - a) hi
  rw [Nat.add_sub_cancel' hx.1] at hread
  rw [hread]
  simp [hi]

theorem Holds.slice {a : ℕ} {bs : List β} (h : f.Holds a bs) (i n : ℕ) :
    f.Holds (a + i) ((bs.drop i).take n) := by
  intro j hj
  rw [List.length_take, List.length_drop] at hj
  rw [Nat.add_assoc, h (i + j) (by omega), List.getElem?_take_of_lt (by omega), List.getElem?_drop]

theorem Holds.unique {a : ℕ} {bs cs : List β} (hbs : f.Holds a bs) (hcs : f.Holds a cs)
    (hlen : bs.length = cs.length) : bs = cs := by
  apply List.ext_getElem?
  intro i
  rcases Nat.lt_or_ge i bs.length with hi | hi
  · rw [← hbs i hi, ← hcs i (hlen ▸ hi)]
  · rw [List.getElem?_eq_none hi, List.getElem?_eq_none (hlen ▸ hi)]

theorem covers_zero (a : ℕ) : f.Covers a 0 := by
  intro x hx
  rw [mem_span] at hx
  omega

theorem covers_add (a m n : ℕ) : f.Covers a (m + n) ↔ f.Covers a m ∧ f.Covers (a + m) n := by
  constructor
  · intro h
    constructor
    · intro x hx
      rw [mem_span] at hx
      exact h x (by rw [mem_span]; omega)
    · intro x hx
      rw [mem_span] at hx
      exact h x (by rw [mem_span]; omega)
  · intro h
    obtain ⟨hlo, hhi⟩ := h
    intro x hx
    rw [mem_span] at hx
    rcases Nat.lt_or_ge x (a + m) with hlt | hge
    · exact hlo x (by rw [mem_span]; omega)
    · exact hhi x (by rw [mem_span]; omega)

theorem FirstGap.not_covers {a n g : ℕ} (h : f.FirstGap a n g) : ¬f.Covers a n := by
  intro hcov
  exact hcov g h.inside h.gap

theorem firstGap_here {a n : ℕ} (hn : 0 < n) (h : f a = none) : f.FirstGap a n a := by
  refine ⟨by rw [mem_span]; omega, h, ?_⟩
  rw [Nat.sub_self]
  exact covers_zero a

theorem FirstGap.after {a m n g : ℕ} (hm : f.Covers a m) (h : f.FirstGap (a + m) n g) :
    f.FirstGap a (m + n) g := by
  have hin := h.inside
  rw [mem_span] at hin
  refine ⟨by rw [mem_span]; omega, h.gap, ?_⟩
  have hsplit : g - a = m + (g - (a + m)) := by omega
  rw [hsplit, covers_add]
  exact ⟨hm, h.before⟩

/-! ### Writing a range -/

theorem write_nil (addr : ℕ) : f.write addr [] = f := by
  funext a
  have hout : a ∉ span addr ([] : List β).length := by
    rw [mem_span, List.length_nil]
    omega
  rw [write, if_neg hout]

theorem write_append (addr : ℕ) (bs cs : List β) :
    f.write addr (bs ++ cs) = (f.write addr bs).write (addr + bs.length) cs := by
  funext a
  unfold write
  simp only [mem_span, List.length_append]
  by_cases hlo : a < addr + bs.length
  · have hcs : ¬(addr + bs.length ≤ a ∧ a < addr + bs.length + cs.length) := by omega
    rw [if_neg hcs]
    by_cases ha : addr ≤ a
    · rw [if_pos (by omega), if_pos (by omega), List.getElem?_append_left (by omega)]
    · rw [if_neg (by omega), if_neg (by omega)]
  · have hbs : ¬(addr ≤ a ∧ a < addr + bs.length) := by omega
    rw [if_neg hbs]
    by_cases ha : a < addr + bs.length + cs.length
    · rw [if_pos (by omega), if_pos (by omega), List.getElem?_append_right (by omega)]
      congr 1
      omega
    · rw [if_neg (by omega), if_neg (by omega)]

theorem write_eq_none_iff {addr : ℕ} {data : List β} (h : f.Covers addr data.length) (a : ℕ) :
    f.write addr data a = none ↔ f a = none := by
  unfold write
  split_ifs with ha
  · have hne := h a ha
    rw [mem_span] at ha
    simp only [List.getElem?_eq_none_iff, hne, iff_false]
    omega
  · rfl

theorem covers_write {addr : ℕ} {data : List β} (h : f.Covers addr data.length) (a n : ℕ) :
    (f.write addr data).Covers a n ↔ f.Covers a n :=
  forall₂_congr fun x _ => not_congr (write_eq_none_iff h x)

/-! ### What stays -/

/-- What `f` holds in `A` is still there in `g`. -/
def KeptIn (A : Set ℕ) (f g : FlatMemory β) : Prop := ∀ a ∈ A, ∀ x, f a = some x → g a = some x

theorem keptIn_refl (A : Set ℕ) (f : FlatMemory β) : KeptIn A f f := fun _ _ _ h => h

theorem KeptIn.trans {A : Set ℕ} {f g h : FlatMemory β} (hfg : KeptIn A f g) (hgh : KeptIn A g h) :
    KeptIn A f h :=
  fun a ha x hx => hgh a ha x (hfg a ha x hx)

theorem KeptIn.holds {A : Set ℕ} {f g : FlatMemory β} (h : KeptIn A f g) {a : ℕ} {bs : List β}
    (hA : span a bs.length ⊆ A) (hbs : f.Holds a bs) : g.Holds a bs := by
  intro i hi
  have hread := hbs i hi
  rw [List.getElem?_eq_getElem hi] at hread ⊢
  exact h (a + i) (hA (by rw [mem_span]; omega)) _ hread

theorem keptIn_write (f : FlatMemory β) {A : Set ℕ} {addr : ℕ} {data : List β}
    (h : Disjoint (span addr data.length) A) : KeptIn A f (f.write addr data) := by
  intro a ha x hx
  rw [write, if_neg fun hin => Set.disjoint_left.mp h hin ha]
  exact hx

theorem holds_write (f : FlatMemory β) (addr : ℕ) (data : List β) :
    (f.write addr data).Holds addr data := by
  intro i hi
  rw [write, if_pos (by rw [mem_span]; omega), Nat.add_sub_cancel_left]

end FlatMemory

/-! ### The flat memory of an address space -/

open Classical in
noncomputable def AddressSpace.contents {π β : Type} (s : AddressSpace π β) : FlatMemory β :=
  fun a => if s.Mapped a then some (s.byte a) else none

namespace AddressSpace
variable {π β : Type}

theorem contents_of_mapped {s : AddressSpace π β} {a : ℕ} (h : s.Mapped a) :
    s.contents a = some (s.byte a) := if_pos h

theorem contents_ne_none_iff (s : AddressSpace π β) (a : ℕ) : s.contents a ≠ none ↔ s.Mapped a := by
  unfold contents
  split_ifs with h <;> simp [h]

theorem covers_contents (s : AddressSpace π β) (a n : ℕ) :
    s.contents.Covers a n ↔ s.Covers a n :=
  forall₂_congr fun x _ => s.contents_ne_none_iff x

theorem holds_contents {s : AddressSpace π β} {a n : ℕ} (h : s.Covers a n) :
    s.contents.Holds a ((List.range n).map fun i => s.byte (a + i)) := by
  intro i hi
  rw [List.length_map, List.length_range] at hi
  have hmapped := h (a + i) (by rw [mem_span]; omega)
  rw [contents_of_mapped hmapped]
  simp [hi]

theorem contents_eq_some {s : AddressSpace π β} {a : ℕ} {x : β} :
    s.contents a = some x ↔ s.Mapped a ∧ s.byte a = x := by
  unfold contents
  split_ifs with h <;> simp [h]

theorem contents_store [Zero β] {s : AddressSpace π β} {addr : ℕ} {data : List β}
    (h : s.Covers addr data.length) :
    (s.store addr data).contents = s.contents.write addr data := by
  funext a
  unfold FlatMemory.write
  split_ifs with ha
  · have hmapped : (s.store addr data).Mapped a := h a ha
    rw [mem_span] at ha
    rw [contents_of_mapped hmapped]
    show some (if _ then _ else _) = _
    rw [if_pos (by rw [mem_span]; omega), List.getElem?_eq_getElem (by omega),
      List.getD_eq_getElem _ _ (by omega)]
  · have hbyte : (s.store addr data).byte a = s.byte a := if_neg ha
    unfold contents
    rw [hbyte]
    rfl

theorem keptIn_map [Zero β] {page top : ℕ} {s : AddressSpace π β} {base size : ℕ}
    (h : s.Free page top base size) (attr : π) (A : Set ℕ) :
    FlatMemory.KeptIn A s.contents (s.map base size attr).contents := by
  intro a _ x hx
  rw [contents_eq_some] at hx ⊢
  obtain ⟨⟨m, hm, ham⟩, hbyte⟩ := hx
  have hout : a ∉ span base size := Set.disjoint_left.mp (h.clear m hm) ham
  refine ⟨⟨m, Or.inr hm, ham⟩, ?_⟩
  show (if _ then _ else _) = x
  rw [if_neg hout]
  exact hbyte

end AddressSpace
end Lib
