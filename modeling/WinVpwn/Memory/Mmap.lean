import Mathlib.Data.List.Sort
import WinVpwn.Lib.Interval
import WinVpwn.Rust.Word

/-!
# The virtual address-space map (memory/mmap.rs)
-/

namespace WinVpwn.Memory
open Rust Lib

/-- `MmapError`: the base address that failed to insert. -/
structure MmapError where
  base : U64
  deriving DecidableEq, Repr

structure Region where
  base : U64
  size : U64
  prot : U32
  deriving DecidableEq, Repr

namespace Region
variable {ε : Type}

/-- `end` (mmap.rs:35). -/
def endAddr (b : Build) (r : Region) : Outcome ε U64 := b.add r.base r.size

/-- `contains` (mmap.rs:40). -/
def contains (b : Build) (r : Region) (addr : U64) : Outcome ε Bool := do
  if r.base ≤ addr then
    let top ← r.endAddr b
    return addr < top
  else
    return false

/-- `overlaps` (mmap.rs:45). The region's own end is computed only when it starts
below the end of the range. -/
def overlaps (b : Build) (r : Region) (base size : U64) : Outcome ε Bool := do
  let top ← b.add base size
  if r.base < top then
    let stop ← r.endAddr b
    return base < stop
  else
    return false

def range (r : Region) : Set ℕ := span r.base.toNat r.size.toNat

theorem mem_range {r : Region} {a : ℕ} :
    a ∈ r.range ↔ r.base.toNat ≤ a ∧ a < r.base.toNat + r.size.toNat := Iff.rfl

instance (r : Region) (a : ℕ) : Decidable (a ∈ r.range) :=
  inferInstanceAs (Decidable (a ∈ span _ _))

end Region

/-- `MemoryMap`: the claimed regions, kept sorted by base. -/
structure MemoryMap where
  regions : List Region
  deriving DecidableEq, Repr

namespace MemoryMap

def new : MemoryMap := ⟨[]⟩

/-- `sort_by_key(|r| r.base)`, a stable sort. -/
def sortByBase (rs : List Region) : List Region := rs.insertionSort fun r s => r.base ≤ s.base

/-- `insert` (mmap.rs:63). -/
def insert (b : Build) (base size : U64) (prot : U32) : Act MemoryMap MmapError Unit := do
  if size = 0 then
    return ()
  let m ← Act.get
  let taken ← Act.lift (m.regions.anyM fun r => r.overlaps b base size)
  if taken then
    Act.lift (.err ⟨base⟩)
  else
    Act.set ⟨sortByBase (m.regions ++ [⟨base, size, prot⟩])⟩

/-! ### Regions that end below the top

Where no end overflows the tests of `Region` are the ones on half-open ranges. -/

section Bounded
variable {ε : Type} (b : Build) {r : Region} {base size : U64}

def Bounded (r : Region) : Prop := r.base.toNat + r.size.toNat < 2 ^ 64

theorem contains_eq (hr : Bounded r) (addr : U64) :
    (r.contains b addr : Outcome ε Bool) = .ok (decide (addr.toNat ∈ r.range)) := by
  unfold Region.contains Region.endAddr
  rw [Build.add_eq b _ _ hr]
  have hend := toNat_add_of_lt r.base r.size hr
  by_cases hle : r.base ≤ addr
  · have hle' : r.base.toNat ≤ addr.toNat := hle
    rw [if_pos hle]
    simp only [Outcome.ok_bind, Outcome.pure_eq, Outcome.ok.injEq, decide_eq_decide]
    show addr.toNat < (r.base + r.size).toNat ↔ _
    rw [hend, Region.mem_range]
    omega
  · have hle' : ¬r.base.toNat ≤ addr.toNat := hle
    rw [if_neg hle]
    simp [Region.mem_range, hle']

theorem overlaps_eq (hr : Bounded r) (hbound : base.toNat + size.toNat < 2 ^ 64) :
    (r.overlaps b base size : Outcome ε Bool) =
      .ok (decide (r.base.toNat < base.toNat + size.toNat ∧
        base.toNat < r.base.toNat + r.size.toNat)) := by
  unfold Region.overlaps Region.endAddr
  rw [Build.add_eq b _ _ hbound, Build.add_eq b _ _ hr]
  have htop := toNat_add_of_lt base size hbound
  have hend := toNat_add_of_lt r.base r.size hr
  simp only [Outcome.ok_bind, Outcome.pure_eq, BitVec.lt_def, htop, hend]
  split_ifs with h <;> simp [h]

end Bounded

/-- The map as its callers keep it: regions that are not empty, end below the top
and lie one after the other. -/
structure Wf (m : MemoryMap) : Prop where
  bounded : ∀ r ∈ m.regions, Bounded r
  nonempty : ∀ r ∈ m.regions, 0 < r.size.toNat
  separated : m.regions.Pairwise fun r s => r.base.toNat + r.size.toNat ≤ s.base.toNat

theorem wf_new : Wf new := ⟨by simp [new], by simp [new], List.Pairwise.nil⟩

def Clash (m : MemoryMap) (base size : U64) : Prop :=
  ∃ r ∈ m.regions, ¬Disjoint r.range (span base.toNat size.toNat)

theorem mem_sortByBase (rs : List Region) (r : Region) : r ∈ sortByBase rs ↔ r ∈ rs :=
  List.mem_insertionSort _

theorem insert_of_tests {b : Build} {m : MemoryMap} {base size : U64} (prot : U32)
    (hsize : size ≠ 0) {p : Region → Bool}
    (hp : ∀ r ∈ m.regions, (r.overlaps b base size : Outcome MmapError Bool) = .ok (p r)) :
    insert b base size prot m = if m.regions.any p
      then (.err ⟨base⟩, m) else (.ok (), ⟨sortByBase (m.regions ++ [⟨base, size, prot⟩])⟩) := by
  have hany := Outcome.anyM_eq m.regions hp
  simp only [insert, if_neg hsize, Act.bind_apply, Act.get_apply, Act.lift_apply, hany]
  split_ifs <;> rfl

theorem insert_cases (b : Build) {m : MemoryMap} (hm : m.Wf) {base size : U64} (prot : U32)
    (hbound : base.toNat + size.toNat < 2 ^ 64) :
    (size = 0 ∧ insert b base size prot m = (.ok (), m)) ∨
    (0 < size.toNat ∧ m.Clash base size ∧ insert b base size prot m = (.err ⟨base⟩, m)) ∨
    (0 < size.toNat ∧ ¬m.Clash base size ∧
      insert b base size prot m = (.ok (), ⟨sortByBase (m.regions ++ [⟨base, size, prot⟩])⟩)) := by
  by_cases hzero : size = 0
  · refine Or.inl ⟨hzero, ?_⟩
    simp [insert, hzero]
  have hpos : 0 < size.toNat := BitVec.toNat_pos_of_ne_zero hzero
  have hrun := insert_of_tests prot hzero fun r hr =>
    overlaps_eq (ε := MmapError) b (hm.bounded r hr) hbound
  have hclash : (m.regions.any fun r => decide (r.base.toNat < base.toNat + size.toNat ∧
      base.toNat < r.base.toNat + r.size.toNat)) = true ↔ m.Clash base size := by
    simp only [List.any_eq_true, decide_eq_true_eq, Clash]
    refine exists_congr fun r => and_congr_right fun hr => ?_
    exact (not_disjoint_span_iff (hm.nonempty r hr) hpos).symm
  by_cases h : m.Clash base size
  · exact Or.inr (Or.inl ⟨hpos, h, by rw [hrun, if_pos (hclash.mpr h)]⟩)
  · exact Or.inr (Or.inr ⟨hpos, h, by rw [hrun, if_neg (fun hc => h (hclash.mp hc))]⟩)

/-! ### Regions that may end at the top

A release build wraps the end of a region that reaches `2^64` to 0 and misses the
overlaps of that region; it still refuses nothing that meets no region. -/

/-- The range ends at or below the top, and a debug build can compute its end. -/
def Ends (b : Build) (base size : U64) : Prop :=
  base.toNat + size.toNat ≤ 2 ^ 64 ∧ (b = .debug → base.toNat + size.toNat < 2 ^ 64)

theorem add_cases {ε : Type} {b : Build} {x y : U64} (h : Ends b x y) :
    ∃ top : U64, (b.add x y : Outcome ε U64) = .ok top ∧
      (top.toNat = x.toNat + y.toNat ∨ top.toNat = 0) := by
  by_cases hlt : x.toNat + y.toNat < 2 ^ 64
  · exact ⟨x + y, Build.add_eq b x y hlt, Or.inl (toNat_add_of_lt x y hlt)⟩
  · cases b with
    | debug => exact absurd (h.2 rfl) hlt
    | release =>
      refine ⟨x + y, rfl, Or.inr ?_⟩
      have hsum := h.1
      rw [BitVec.toNat_add]
      omega

theorem overlaps_sound {ε : Type} {b : Build} {r : Region} {base size : U64}
    (hr : Ends b r.base r.size) (hnew : Ends b base size) :
    ∃ t, (r.overlaps b base size : Outcome ε Bool) = .ok t ∧
      (t = true → r.base.toNat < base.toNat + size.toNat ∧
        base.toNat < r.base.toNat + r.size.toNat) := by
  obtain ⟨top, htop, hval⟩ := add_cases (ε := ε) hnew
  obtain ⟨stop, hstop, hval'⟩ := add_cases (ε := ε) hr
  unfold Region.overlaps Region.endAddr
  simp only [htop, hstop, Outcome.ok_bind, Outcome.pure_eq, BitVec.lt_def]
  split_ifs with h
  · refine ⟨_, rfl, fun ht => ?_⟩
    have hlt := of_decide_eq_true ht
    omega
  · exact ⟨false, rfl, fun ht => by cases ht⟩

theorem insert_sound {b : Build} {m : MemoryMap} (hm : ∀ r ∈ m.regions, Ends b r.base r.size)
    {base size : U64} (prot : U32) (hnew : Ends b base size) :
    ((∃ r ∈ m.regions, r.base.toNat < base.toNat + size.toNat ∧
        base.toNat < r.base.toNat + r.size.toNat) ∧ insert b base size prot m = (.err ⟨base⟩, m)) ∨
    ∃ m' : MemoryMap, insert b base size prot m = (.ok (), m') ∧
      ∀ r, r ∈ m'.regions ↔ r ∈ m.regions ∨ (0 < size.toNat ∧ r = ⟨base, size, prot⟩) := by
  by_cases hzero : size = 0
  · refine Or.inr ⟨m, by simp [insert, hzero], fun r => ?_⟩
    simp [hzero]
  have hpos : 0 < size.toNat := BitVec.toNat_pos_of_ne_zero hzero
  let p : Region → Bool := fun r => (r.overlaps b base size : Outcome MmapError Bool) = .ok true
  have hp : ∀ r ∈ m.regions, (r.overlaps b base size : Outcome MmapError Bool) = .ok (p r) := by
    intro r hr
    obtain ⟨t, ht, -⟩ := overlaps_sound (ε := MmapError) (hm r hr) hnew
    cases t <;> simp [p, ht]
  rw [insert_of_tests prot hzero hp]
  split_ifs with h
  · obtain ⟨r, hr, hpr⟩ := List.any_eq_true.mp h
    obtain ⟨t, ht, hmeet⟩ := overlaps_sound (ε := MmapError) (hm r hr) hnew
    rw [hp r hr, hpr, Outcome.ok.injEq] at ht
    exact Or.inl ⟨⟨r, hr, hmeet ht.symm⟩, rfl⟩
  · refine Or.inr ⟨_, rfl, fun r => ?_⟩
    simp [mem_sortByBase, hpos]

theorem insert_outcomes (b : Build) (m : MemoryMap) (base size : U64) (prot : U32) :
    (∃ p, insert b base size prot m = (.fault p, m)) ∨
    (∃ e, insert b base size prot m = (.err e, m)) ∨
    ∃ m' : MemoryMap, insert b base size prot m = (.ok (), m') ∧
      ∀ r, r ∈ m'.regions ↔ r ∈ m.regions ∨ (0 < size.toNat ∧ r = ⟨base, size, prot⟩) := by
  by_cases hzero : size = 0
  · refine Or.inr (Or.inr ⟨m, by simp [insert, hzero], fun r => ?_⟩)
    simp [hzero]
  have hpos : 0 < size.toNat := BitVec.toNat_pos_of_ne_zero hzero
  unfold insert
  simp only [if_neg hzero, Act.bind_apply, Act.get_apply, Act.lift_apply]
  cases (m.regions.anyM fun r => r.overlaps b base size : Outcome MmapError Bool) with
  | fault p => exact Or.inl ⟨p, rfl⟩
  | err e => exact Or.inr (Or.inl ⟨e, rfl⟩)
  | ok taken =>
    cases taken with
    | true => exact Or.inr (Or.inl ⟨⟨base⟩, rfl⟩)
    | false =>
      refine Or.inr (Or.inr ⟨_, rfl, fun r => ?_⟩)
      simp [mem_sortByBase, hpos]

theorem wf_push {m : MemoryMap} (hm : m.Wf) (r : Region) (hr : Bounded r) (hpos : 0 < r.size.toNat)
    (hclash : ¬m.Clash r.base r.size) : (MemoryMap.mk (sortByBase (m.regions ++ [r]))).Wf := by
  have hmem : ∀ s, s ∈ sortByBase (m.regions ++ [r]) ↔ s ∈ m.regions ∨ s = r := by
    intro s
    rw [mem_sortByBase, List.mem_append, List.mem_singleton]
  have hnonempty : ∀ s ∈ sortByBase (m.regions ++ [r]), 0 < s.size.toNat := by
    intro s hs
    rcases (hmem s).mp hs with hs | rfl
    · exact hm.nonempty s hs
    · exact hpos
  refine ⟨?_, hnonempty, ?_⟩
  · intro s hs
    rcases (hmem s).mp hs with hs | rfl
    · exact hm.bounded s hs
    · exact hr
  · refine pairwise_separated (fun s : Region => s.base.toNat) (fun s => s.size.toNat) _
      hnonempty ?_ ?_
    · exact List.pairwise_insertionSort (r := fun s t : Region => s.base ≤ t.base) _
    · have hpush : (m.regions ++ [r]).Pairwise fun s t => Disjoint s.range t.range := by
        rw [List.pairwise_append]
        refine ⟨?_, List.pairwise_singleton _ _, ?_⟩
        · apply hm.separated.imp
          intro s t hst
          exact disjoint_span_iff.mpr (Or.inr (Or.inr (Or.inl hst)))
        · intro s hs t ht
          rw [List.mem_singleton.mp ht]
          by_contra hmeet
          exact hclash ⟨s, hs, hmeet⟩
      exact (List.perm_insertionSort (fun s t : Region => s.base ≤ t.base) _).symm.pairwise hpush
        (fun h => h.symm)

end MemoryMap
end WinVpwn.Memory
