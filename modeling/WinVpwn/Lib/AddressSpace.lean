import Mathlib.Data.List.GetD
import Mathlib.Data.List.Pairwise
import Mathlib.Data.Set.Insert
import WinVpwn.Lib.Interval

/-!
# Paged address spaces

An address space is the set of its mappings, each a range with an attribute, and
a byte for every address. Mapping a range zeroes it; a store overwrites a range.
Pieces that are mapped and filled one after the other in ranges of their own
keep their contents.
-/

namespace Lib

structure Mapping (π : Type) where
  base : ℕ
  size : ℕ
  attr : π

def Mapping.range {π : Type} (m : Mapping π) : Set ℕ := span m.base m.size

/-- `byte` counts at mapped addresses only. -/
structure AddressSpace (π β : Type) where
  mappings : Set (Mapping π)
  byte : ℕ → β

namespace AddressSpace
variable {π β : Type} [Zero β]

def empty : AddressSpace π β := ⟨∅, fun _ => 0⟩

def Mapped (s : AddressSpace π β) (a : ℕ) : Prop := ∃ m ∈ s.mappings, a ∈ m.range

def Covers (s : AddressSpace π β) (base size : ℕ) : Prop := ∀ a ∈ span base size, s.Mapped a

/-- A range of whole pages below `top` that meets no mapping. -/
structure Free (page top : ℕ) (s : AddressSpace π β) (base size : ℕ) : Prop where
  base_dvd : page ∣ base
  size_dvd : page ∣ size
  pos : 0 < size
  below : base + size ≤ top
  clear : ∀ m ∈ s.mappings, Disjoint m.range (span base size)

def map (s : AddressSpace π β) (base size : ℕ) (attr : π) : AddressSpace π β where
  mappings := insert ⟨base, size, attr⟩ s.mappings
  byte a := if a ∈ span base size then 0 else s.byte a

def store (s : AddressSpace π β) (addr : ℕ) (data : List β) : AddressSpace π β where
  mappings := s.mappings
  byte a := if a ∈ span addr data.length then data.getD (a - addr) 0 else s.byte a

@[simp] theorem mappings_map (s : AddressSpace π β) (base size : ℕ) (attr : π) :
    (s.map base size attr).mappings = insert ⟨base, size, attr⟩ s.mappings := rfl

@[simp] theorem mappings_store (s : AddressSpace π β) (addr : ℕ) (data : List β) :
    (s.store addr data).mappings = s.mappings := rfl

theorem mapped_map (s : AddressSpace π β) (base size a : ℕ) (attr : π) :
    (s.map base size attr).Mapped a ↔ a ∈ span base size ∨ s.Mapped a := by
  simp [Mapped, Mapping.range]

theorem covers_map (s : AddressSpace π β) {base size addr n : ℕ} (attr : π) (hlo : base ≤ addr)
    (hhi : addr + n ≤ base + size) : (s.map base size attr).Covers addr n := by
  intro a ha
  rw [mem_span] at ha
  rw [mapped_map, mem_span]
  omega

/-! ### Pieces -/

structure Piece (π β : Type) where
  base : ℕ
  size : ℕ
  attr : π
  addr : ℕ
  data : List β

namespace Piece
variable (p : Piece π β)

def range : Set ℕ := span p.base p.size

def mapping : Mapping π := ⟨p.base, p.size, p.attr⟩

def Inside : Prop := p.base ≤ p.addr ∧ p.addr + p.data.length ≤ p.base + p.size

def byteAt (a : ℕ) : β := if a ∈ span p.addr p.data.length then p.data.getD (a - p.addr) 0 else 0

theorem byteAt_of_lt {i : ℕ} (hi : i < p.data.length) :
    p.byteAt (p.addr + i) = p.data.getD i 0 := by
  have hmem : p.addr + i ∈ span p.addr p.data.length := by
    rw [mem_span]
    omega
  rw [byteAt, if_pos hmem, Nat.add_sub_cancel_left]

theorem byteAt_of_not_mem {a : ℕ} (ha : a ∉ span p.addr p.data.length) : p.byteAt a = 0 :=
  if_neg ha

theorem byteAt_eq_zero (h : ∀ x ∈ p.data, x = 0) (a : ℕ) : p.byteAt a = 0 := by
  unfold byteAt
  split_ifs with ha
  · rw [mem_span] at ha
    rw [List.getD_eq_getElem _ _ (by omega)]
    exact h _ (List.getElem_mem _)
  · rfl

end Piece

def load (s : AddressSpace π β) (p : Piece π β) : AddressSpace π β :=
  (s.map p.base p.size p.attr).store p.addr p.data

def loadAll (s : AddressSpace π β) (ps : List (Piece π β)) : AddressSpace π β := ps.foldl load s

theorem loadAll_append (s : AddressSpace π β) (ps qs : List (Piece π β)) :
    s.loadAll (ps ++ qs) = (s.loadAll ps).loadAll qs := List.foldl_append

theorem byte_load_of_mem (s : AddressSpace π β) (p : Piece π β) {a : ℕ} (ha : a ∈ p.range) :
    (s.load p).byte a = p.byteAt a := by
  unfold load store map Piece.byteAt
  have ha' : a ∈ span p.base p.size := ha
  simp only [if_pos ha']

theorem byte_load_of_not_mem (s : AddressSpace π β) {p : Piece π β} (hp : p.Inside) {a : ℕ}
    (ha : a ∉ p.range) : (s.load p).byte a = s.byte a := by
  have hrange : a ∉ span p.base p.size := ha
  have hdata : a ∉ span p.addr p.data.length := by
    have hlo := hp.1
    have hhi := hp.2
    rw [mem_span] at hrange ⊢
    omega
  simp only [load, store, map, if_neg hrange, if_neg hdata]

theorem mem_mappings_loadAll (s : AddressSpace π β) (ps : List (Piece π β)) (m : Mapping π) :
    m ∈ (s.loadAll ps).mappings ↔ m ∈ s.mappings ∨ ∃ p ∈ ps, m = p.mapping := by
  induction ps generalizing s with
  | nil => simp [loadAll]
  | cons p ps ih =>
    show m ∈ ((s.load p).loadAll ps).mappings ↔ _
    rw [ih]
    simp only [load, mappings_store, mappings_map, Set.mem_insert_iff, List.mem_cons,
      exists_eq_or_imp]
    constructor
    · rintro ((rfl | h) | h)
      · exact Or.inr (Or.inl rfl)
      · exact Or.inl h
      · exact Or.inr (Or.inr h)
    · rintro (h | rfl | h)
      · exact Or.inl (Or.inr h)
      · exact Or.inl (Or.inl rfl)
      · exact Or.inr h

theorem byte_loadAll_of_not_mem (s : AddressSpace π β) (ps : List (Piece π β))
    (hin : ∀ p ∈ ps, p.Inside) {a : ℕ} (ha : ∀ p ∈ ps, a ∉ p.range) :
    (s.loadAll ps).byte a = s.byte a := by
  induction ps generalizing s with
  | nil => rfl
  | cons p ps ih =>
    show ((s.load p).loadAll ps).byte a = _
    rw [ih _ (fun q hq => hin q (List.mem_cons_of_mem _ hq))
      (fun q hq => ha q (List.mem_cons_of_mem _ hq))]
    exact byte_load_of_not_mem s (hin p (List.mem_cons_self ..)) (ha p (List.mem_cons_self ..))

theorem byte_loadAll_of_mem (s : AddressSpace π β) (ps : List (Piece π β))
    (hin : ∀ p ∈ ps, p.Inside) (hdisj : ps.Pairwise fun p q => Disjoint p.range q.range)
    {p : Piece π β} (hp : p ∈ ps) {a : ℕ} (ha : a ∈ p.range) :
    (s.loadAll ps).byte a = p.byteAt a := by
  induction ps generalizing s with
  | nil => cases hp
  | cons q ps ih =>
    show ((s.load q).loadAll ps).byte a = _
    rw [List.pairwise_cons] at hdisj
    have hin' : ∀ r ∈ ps, r.Inside := fun r hr => hin r (List.mem_cons_of_mem _ hr)
    rcases List.mem_cons.mp hp with rfl | hp
    · have hout : ∀ r ∈ ps, a ∉ r.range := fun r hr =>
        Set.disjoint_left.mp (hdisj.1 r hr) ha
      rw [byte_loadAll_of_not_mem _ ps hin' hout, byte_load_of_mem s p ha]
    · exact ih _ hin' hdisj.2 hp

theorem loadAll_perm (s : AddressSpace π β) {ps qs : List (Piece π β)} (h : ps.Perm qs)
    (hin : ∀ p ∈ ps, p.Inside) (hdisj : ps.Pairwise fun p q => Disjoint p.range q.range) :
    s.loadAll ps = s.loadAll qs := by
  have hin' : ∀ q ∈ qs, q.Inside := fun q hq => hin q (h.mem_iff.mpr hq)
  have hdisj' := h.pairwise hdisj fun hpq => hpq.symm
  have hmappings : (s.loadAll ps).mappings = (s.loadAll qs).mappings := by
    ext m
    simp only [mem_mappings_loadAll, h.mem_iff]
  have hbyte : (s.loadAll ps).byte = (s.loadAll qs).byte := by
    funext a
    by_cases ha : ∃ p ∈ ps, a ∈ p.range
    · obtain ⟨p, hp, ha⟩ := ha
      rw [byte_loadAll_of_mem s ps hin hdisj hp ha,
        byte_loadAll_of_mem s qs hin' hdisj' (h.mem_iff.mp hp) ha]
    · have hout : ∀ p ∈ ps, a ∉ p.range := fun p hp hap => ha ⟨p, hp, hap⟩
      rw [byte_loadAll_of_not_mem s ps hin hout,
        byte_loadAll_of_not_mem s qs hin' fun q hq => hout q (h.mem_iff.mpr hq)]
  exact congrArg₂ AddressSpace.mk hmappings hbyte

theorem mapped_loadAll_empty (ps : List (Piece π β)) (a : ℕ) :
    ((empty : AddressSpace π β).loadAll ps).Mapped a ↔ ∃ p ∈ ps, a ∈ p.range := by
  unfold Mapped
  constructor
  · intro h
    obtain ⟨m, hm, ha⟩ := h
    rcases (mem_mappings_loadAll ..).mp hm with hm | ⟨p, hp, rfl⟩
    · exact absurd hm (Set.notMem_empty m)
    · exact ⟨p, hp, ha⟩
  · intro h
    obtain ⟨p, hp, ha⟩ := h
    exact ⟨p.mapping, (mem_mappings_loadAll ..).mpr (Or.inr ⟨p, hp, rfl⟩), ha⟩

theorem mapping_eq_of_mem {ps : List (Piece π β)}
    (hdisj : ps.Pairwise fun p q => Disjoint p.range q.range) {p : Piece π β} (hp : p ∈ ps) {a : ℕ}
    (ha : a ∈ p.range) {m : Mapping π} (hm : m ∈ ((empty : AddressSpace π β).loadAll ps).mappings)
    (ham : a ∈ m.range) : m = p.mapping := by
  rcases (mem_mappings_loadAll ..).mp hm with hm | ⟨q, hq, rfl⟩
  · exact absurd hm (Set.notMem_empty m)
  · by_contra hne
    have hpq : p ≠ q := fun h => hne (h ▸ rfl)
    have : Std.Symm fun p q : Piece π β => Disjoint p.range q.range := ⟨fun _ _ h => h.symm⟩
    exact Set.disjoint_left.mp (hdisj.forall hp hq hpq) ha ham

end AddressSpace
end Lib
