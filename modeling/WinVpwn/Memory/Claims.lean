import WinVpwn.Memory.Mmap

/-!
# Histories of claims

A `MemoryMap` after any sequence of `insert` calls. Where every range ends below
the top the map is the set of the ranges it accepted. With arbitrary words, as
`map_memory` passes them, a sum that wraps lets a range in that meets another or
runs over the top.
-/

namespace WinVpwn.Memory
open Rust Lib

namespace MemoryMap

/-- The call `insert(r.base, r.size, r.prot)`. -/
def insertRegion (b : Build) (r : Region) : Act MemoryMap MmapError Unit :=
  insert b r.base r.size r.prot

def after (b : Build) (calls : List Region) : MemoryMap :=
  (Act.runAll (insertRegion b) calls new).2

/-! ### Ranges that end below the top -/

structure Ordered (m : MemoryMap) : Prop where
  increasing : m.regions.Pairwise fun r s => r.base < s.base
  nonempty : ∀ r ∈ m.regions, 0 < r.size.toNat
  disjoint : m.regions.Pairwise fun r s => Disjoint r.range s.range

theorem Wf.ordered {m : MemoryMap} (hm : m.Wf) : m.Ordered := by
  refine ⟨?_, hm.nonempty, ?_⟩
  · apply hm.separated.imp_of_mem
    intro r s hr _ hsep
    have hpos := hm.nonempty r hr
    show r.base.toNat < s.base.toNat
    omega
  · apply hm.separated.imp
    intro r s hsep
    exact disjoint_span_iff.mpr (Or.inr (Or.inr (Or.inl hsep)))

/-- What a call does on the map `m`: the range is claimed if it meets none of
those claimed, and is refused otherwise. -/
structure InsertFaithful (m : MemoryMap) (r : Region)
    (out : Outcome MmapError Unit × MemoryMap) : Prop where
  ok_iff : out.1 = .ok () ↔ r.size = 0 ∨ ∀ c ∈ m.regions, Disjoint c.range r.range
  refused : out.1 = .ok () ∨ out.1 = .err ⟨r.base⟩
  added : out.1 = .ok () → r.size ≠ 0 → out.2.regions.Perm (m.regions ++ [r])
  unchanged : out.1 ≠ .ok () ∨ r.size = 0 → out.2 = m

theorem insert_faithful (b : Build) {m : MemoryMap} (hm : m.Wf) {r : Region} (hr : Bounded r) :
    InsertFaithful m r (insertRegion b r m) := by
  have hclash : m.Clash r.base r.size ↔ ¬∀ c ∈ m.regions, Disjoint c.range r.range := by
    push Not
    exact Iff.rfl
  unfold insertRegion
  rcases insert_cases b hm r.prot hr with
    ⟨hzero, hrun⟩ | ⟨hpos, hmeet, hrun⟩ | ⟨hpos, hclear, hrun⟩
  · rw [hrun]
    exact ⟨by simp [hzero], Or.inl rfl, fun _ hne => absurd hzero hne, fun _ => rfl⟩
  · have hne : r.size ≠ 0 := BitVec.toNat_ne.mpr hpos.ne'
    rw [hrun]
    refine ⟨?_, Or.inr rfl, nofun, fun _ => rfl⟩
    simp only [reduceCtorEq, false_iff, not_or]
    exact ⟨hne, hclash.mp hmeet⟩
  · have hne : r.size ≠ 0 := BitVec.toNat_ne.mpr hpos.ne'
    rw [hclash, not_not] at hclear
    rw [hrun]
    refine ⟨?_, Or.inl rfl, fun _ _ => List.perm_insertionSort _ _, ?_⟩
    · simp only [true_iff]
      exact Or.inr hclear
    · intro h
      rcases h with h | h
      · exact absurd rfl h
      · exact absurd h hne

theorem wf_insert (b : Build) {m : MemoryMap} (hm : m.Wf) {r : Region} (hr : Bounded r) :
    (insertRegion b r m).2.Wf := by
  unfold insertRegion
  rcases insert_cases b hm r.prot hr with ⟨-, hrun⟩ | ⟨-, -, hrun⟩ | ⟨hpos, hclear, hrun⟩
  · rw [hrun]
    exact hm
  · rw [hrun]
    exact hm
  · rw [hrun]
    exact wf_push hm r hr hpos hclear

theorem wf_after (b : Build) {calls : List Region} (hcalls : ∀ r ∈ calls, Bounded r) :
    (after b calls).Wf := by
  refine Act.runAll_invariant (P := Wf) (C := fun _ r => Bounded r)
    (fun m r hm hr => wf_insert b hm hr) wf_new ?_ calls (List.prefix_refl calls)
  intro pre r hpre
  exact hcalls r (hpre.subset (List.mem_append_right pre (List.mem_singleton_self r)))

/-- After any calls whose ranges end below the top the map is in order, and the
next call claims its range exactly when that meets none claimed before. -/
theorem claims_faithful (b : Build) (calls : List Region) (hcalls : ∀ r ∈ calls, Bounded r) :
    (after b calls).Ordered ∧
      ∀ r, Bounded r → InsertFaithful (after b calls) r (insertRegion b r (after b calls)) :=
  ⟨(wf_after b hcalls).ordered, fun _ hr => insert_faithful b (wf_after b hcalls) hr⟩

def threeCalls : List Region := [⟨0x1000, 0x3000, 5⟩, ⟨0x2000, 0x100, 6⟩, ⟨0x4000, 0x100, 6⟩]

theorem threeCalls_faithful : (after .debug threeCalls).Ordered ∧
    InsertFaithful (after .debug threeCalls) ⟨0x3f00, 0x200, 0⟩
      (insertRegion .debug ⟨0x3f00, 0x200, 0⟩ (after .debug threeCalls)) := by
  have hcalls : ∀ r ∈ threeCalls, Bounded r := by
    unfold Bounded
    decide
  exact ⟨(claims_faithful .debug threeCalls hcalls).1,
    (claims_faithful .debug threeCalls hcalls).2 _ (by unfold Bounded; decide)⟩

/-! ### Arbitrary words

In a release build every test is answered, on sums taken modulo `2^64`. -/

structure NonOverlapping (m : MemoryMap) : Prop where
  below : ∀ r ∈ m.regions, r.base.toNat + r.size.toNat ≤ 2 ^ 64
  disjoint : m.regions.Pairwise fun r s => Disjoint r.range s.range

theorem nonOverlapping_new : NonOverlapping new := ⟨by simp [new], List.Pairwise.nil⟩

/-- The wrapped sums show that the range `r` meets the region `c`. -/
def Seen (c r : Region) : Prop :=
  c.base.toNat < (r.base.toNat + r.size.toNat) % 2 ^ 64 ∧
    r.base.toNat < (c.base.toNat + c.size.toNat) % 2 ^ 64

instance (c r : Region) : Decidable (Seen c r) := inferInstanceAs (Decidable (_ ∧ _))

theorem overlaps_release {ε : Type} (c r : Region) :
    (c.overlaps .release r.base r.size : Outcome ε Bool) = .ok (decide (Seen c r)) := by
  unfold Region.overlaps Region.endAddr Seen
  simp only [Build.add, Outcome.ok_bind, Outcome.pure_eq, BitVec.lt_def, BitVec.toNat_add]
  split_ifs with h <;> simp [h]

theorem overlaps_seen {ε : Type} {b : Build} {c r : Region} (hc : Ends b c.base c.size)
    (hr : Ends b r.base r.size) :
    (c.overlaps b r.base r.size : Outcome ε Bool) = .ok (decide (Seen c r)) := by
  rw [← overlaps_release]
  cases b with
  | release => rfl
  | debug =>
    unfold Region.overlaps Region.endAddr
    rw [Build.add_eq .debug _ _ (hr.2 rfl), Build.add_eq .debug _ _ (hc.2 rfl)]
    rfl

theorem insert_seen_cases {b : Build} {m : MemoryMap} {r : Region}
    (h : ∀ c ∈ m.regions, (c.overlaps b r.base r.size : Outcome MmapError Bool) =
      .ok (decide (Seen c r))) :
    (r.size = 0 ∧ insertRegion b r m = (.ok (), m)) ∨
    (r.size ≠ 0 ∧ (∃ c ∈ m.regions, Seen c r) ∧ insertRegion b r m = (.err ⟨r.base⟩, m)) ∨
    (r.size ≠ 0 ∧ (¬∃ c ∈ m.regions, Seen c r) ∧
      insertRegion b r m = (.ok (), ⟨sortByBase (m.regions ++ [r])⟩)) := by
  by_cases hzero : r.size = 0
  · refine Or.inl ⟨hzero, ?_⟩
    simp [insertRegion, insert, hzero]
  have hrun : insertRegion b r m = if m.regions.any fun c => decide (Seen c r)
      then (.err ⟨r.base⟩, m) else (.ok (), ⟨sortByBase (m.regions ++ [r])⟩) :=
    insert_of_tests r.prot hzero h
  have hseen : (m.regions.any fun c => decide (Seen c r)) = true ↔ ∃ c ∈ m.regions, Seen c r := by
    simp
  rw [hrun]
  by_cases h : ∃ c ∈ m.regions, Seen c r
  · exact Or.inr (Or.inl ⟨hzero, h, if_pos (hseen.mpr h)⟩)
  · exact Or.inr (Or.inr ⟨hzero, h, if_neg (fun hc => h (hseen.mp hc))⟩)

theorem nonOverlapping_push (m : MemoryMap) (r : Region) :
    (MemoryMap.mk (sortByBase (m.regions ++ [r]))).NonOverlapping ↔ m.NonOverlapping ∧
      r.base.toNat + r.size.toNat ≤ 2 ^ 64 ∧ ∀ c ∈ m.regions, Disjoint c.range r.range := by
  have hperm : (sortByBase (m.regions ++ [r])).Perm (m.regions ++ [r]) :=
    List.perm_insertionSort _ _
  have hpairs : (sortByBase (m.regions ++ [r])).Pairwise (fun s t => Disjoint s.range t.range) ↔
      m.regions.Pairwise (fun s t => Disjoint s.range t.range) ∧
        ∀ c ∈ m.regions, Disjoint c.range r.range := by
    rw [hperm.pairwise_iff fun h => h.symm, List.pairwise_append]
    simp
  constructor
  · intro h
    obtain ⟨hbelow, hdisj⟩ := h
    obtain ⟨hold, hnew⟩ := hpairs.mp hdisj
    have hmem : ∀ s, s ∈ m.regions ++ [r] → s.base.toNat + s.size.toNat ≤ 2 ^ 64 :=
      fun s hs => hbelow s (hperm.mem_iff.mpr hs)
    exact ⟨⟨fun s hs => hmem s (List.mem_append_left _ hs), hold⟩,
      hmem r (List.mem_append_right _ (List.mem_singleton_self r)), hnew⟩
  · intro h
    obtain ⟨⟨hbelow, hold⟩, hr, hnew⟩ := h
    refine ⟨fun s hs => ?_, hpairs.mpr ⟨hold, hnew⟩⟩
    rcases List.mem_append.mp (hperm.mem_iff.mp hs) with hs | hs
    · exact hbelow s hs
    · rw [List.mem_singleton.mp hs]
      exact hr

/-- The call is harmless: it claims nothing, its range is free and ends at or
below the top, or the wrapped sums still show an overlap. -/
def Harmless (m : MemoryMap) (r : Region) : Prop :=
  r.size = 0 ∨
  (r.base.toNat + r.size.toNat ≤ 2 ^ 64 ∧ ∀ c ∈ m.regions, Disjoint c.range r.range) ∨
  ∃ c ∈ m.regions, Seen c r

theorem nonOverlapping_insert_iff (m : MemoryMap) (r : Region) (hm : m.NonOverlapping) :
    (insertRegion .release r m).2.NonOverlapping ↔ m.Harmless r := by
  rcases insert_seen_cases fun c (_ : c ∈ m.regions) => overlaps_release c r with
    ⟨hzero, hrun⟩ | ⟨-, hseen, hrun⟩ | ⟨hsize, hunseen, hrun⟩
  · rw [hrun]
    exact iff_of_true hm (Or.inl hzero)
  · rw [hrun]
    exact iff_of_true hm (Or.inr (Or.inr hseen))
  · rw [hrun, nonOverlapping_push]
    unfold Harmless
    simp only [hm, hsize, hunseen, true_and, false_or, or_false]

/-- A release build keeps the regions of a map apart as long as every call is
harmless, and no longer. -/
theorem nonOverlapping_run_iff (calls : List Region) :
    (∀ pre, pre <+: calls → (after .release pre).NonOverlapping) ↔
      ∀ pre r, pre ++ [r] <+: calls → (after .release pre).Harmless r :=
  Act.runAll_invariant_iff (fun m r hm => nonOverlapping_insert_iff m r hm) nonOverlapping_new

/- The end of the last page wraps to 0, so that page is claimed twice. -/
theorem lastPage_overlaps :
    ¬(after .release [⟨0xfffffffffffff000, 0x1000, 5⟩,
      ⟨0xfffffffffffff000, 0x800, 6⟩]).NonOverlapping := by
  intro h
  have hboth : (after .release [⟨0xfffffffffffff000, 0x1000, 5⟩,
      ⟨0xfffffffffffff000, 0x800, 6⟩]).regions =
      [⟨0xfffffffffffff000, 0x1000, 5⟩, ⟨0xfffffffffffff000, 0x800, 6⟩] := by decide +kernel
  have hdisj := h.disjoint
  rw [hboth, List.pairwise_pair] at hdisj
  exact absurd hdisj ((not_disjoint_span_iff (by decide) (by decide)).mpr (by decide))

end MemoryMap
end WinVpwn.Memory
