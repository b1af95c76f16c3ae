import WinVpwn.Cpu.MapElf

/-!
# The pages that cover a segment

The start and the end that `map_elf` computes by masks are the greatest page boundary
at or below the segment and the least one at or above its end, and the overlap test of
the claim map on two such ranges asks whether the segments share a page. A debug build
adds the whole page to the end before it takes 1 away, and so panics on a segment that
ends exactly one page below the top.
-/

namespace WinVpwn.Cpu
open Rust Lib WinVpwn.Memory WinVpwn.Elf

/-- A segment whose file part fits and whose end can be rounded up in 64 bits. -/
structure Coverable (seg : Segment) : Prop where
  filesz : seg.filesz.toNat ≤ seg.memsz.toNat
  bounded : seg.vaddr.toNat + seg.memsz.toNat + (pageBytes - 1) < addressEnd

/-- The page range of `map_elf` is the least cover of the segment by pages, and its file
bytes are written inside. -/
structure LeastCover (b : Build) (seg : Segment) : Prop where
  runs : (Vcpu.pageRange b seg : Outcome VcpuError _) = .ok (seg.start, seg.pageEnd - seg.start)
  start : IsGreatest {m | PAGE_SIZE.toNat ∣ m ∧ m ≤ seg.vaddr.toNat} seg.start.toNat
  pageEnd : IsLeast {m | PAGE_SIZE.toNat ∣ m ∧ seg.vaddr.toNat + seg.memsz.toNat ≤ m}
    seg.pageEnd.toNat
  ordered : seg.start.toNat ≤ seg.pageEnd.toNat
  size : PAGE_SIZE.toNat ∣ (seg.pageEnd - seg.start).toNat
  file : ∀ a ∈ span (seg.start + (seg.vaddr - seg.start)).toNat seg.filesz.toNat,
    seg.start.toNat ≤ a ∧ a < seg.pageEnd.toNat

/-- Some page holds a byte of both segments. -/
def SharePage (seg seg' : Segment) : Prop :=
  ∃ page, (∃ a ∈ span seg.vaddr.toNat seg.memsz.toNat, a / PAGE_SIZE.toNat = page)
    ∧ ∃ a ∈ span seg'.vaddr.toNat seg'.memsz.toNat, a / PAGE_SIZE.toNat = page

/-- The overlap test of `insert` on the range of `seg'`, where that of `seg` is claimed. -/
def overlapTest (b : Build) (seg seg' : Segment) : Outcome VcpuError Bool := do
  let (start, size) ← Vcpu.pageRange b seg
  let (start', size') ← Vcpu.pageRange b seg'
  Region.overlaps b ⟨start, size, seg.flags⟩ start' size'

/-- The test answers whether the segments share a page. -/
def TestsPages (b : Build) (seg seg' : Segment) : Prop :=
  ∃ t, overlapTest b seg seg' = .ok t ∧ (t = true ↔ SharePage seg seg')

section Cover
variable {seg seg' : Segment} (h : Coverable seg)
include h

theorem Coverable.below : seg.vaddr.toNat + seg.memsz.toNat < addressEnd := by
  have hbound := h.bounded
  omega

theorem Coverable.pageEnd_eq : seg.pageEnd.toNat = seg.hi := by
  have hpage : pageBytes = 0x1000 := rfl
  have hword : addressEnd = 2 ^ 64 := rfl
  have hbound := h.bounded
  have hup := pageUp_lt (p := pageBytes) (by decide) (seg.vaddr.toNat + seg.memsz.toNat)
  rw [Segment.toNat_pageEnd h.filesz h.below]
  apply Nat.mod_eq_of_lt
  unfold Segment.hi
  omega

theorem Coverable.ordered : seg.start.toNat ≤ seg.pageEnd.toNat := by
  rw [Segment.toNat_start, h.pageEnd_eq]
  exact seg.lo_le_hi

theorem Coverable.size_eq : (seg.pageEnd - seg.start).toNat = seg.hi - seg.lo := by
  rw [toNat_sub_of_le _ _ h.ordered, Segment.toNat_start, h.pageEnd_eq]

theorem Coverable.range_end : seg.start.toNat + (seg.pageEnd - seg.start).toNat = seg.hi := by
  rw [h.size_eq, Segment.toNat_start]
  exact Nat.add_sub_cancel' seg.lo_le_hi

theorem Coverable.range_below :
    seg.start.toNat + (seg.pageEnd - seg.start).toNat < addressEnd := by
  rw [h.range_end, ← h.pageEnd_eq]
  exact seg.pageEnd.isLt

theorem leastCover_of_rounds {b : Build} (hr : seg.Rounds b) : LeastCover b seg where
  runs := Segment.pageRange_words h.filesz h.below hr
  start := by
    rw [Segment.toNat_start]
    exact isGreatest_pageDown (by decide) _
  pageEnd := by
    rw [h.pageEnd_eq]
    exact isLeast_pageUp (by decide) _
  ordered := h.ordered
  size := by
    rw [h.size_eq]
    exact Nat.dvd_sub (dvd_pageUp _ _) (dvd_pageDown _ _)
  file := by
    have hback : seg.start + (seg.vaddr - seg.start) = seg.vaddr := by
      rw [BitVec.add_comm, BitVec.sub_add_cancel]
    have hfile := h.filesz
    have hlo := pageDown_le pageBytes seg.vaddr.toNat
    have hhi := le_pageUp (p := pageBytes) (by decide) (seg.vaddr.toNat + seg.memsz.toNat)
    intro a ha
    rw [hback, mem_span] at ha
    rw [Segment.toNat_start, h.pageEnd_eq, Segment.lo, Segment.hi]
    omega

theorem rounds_of_runs {b : Build} {r : U64 × U64}
    (hrun : (Vcpu.pageRange b seg : Outcome VcpuError _) = .ok r) : seg.Rounds b := by
  by_contra hr
  rw [Segment.pageRange_overflows h.filesz h.below hr] at hrun
  cases hrun

theorem leastCover_iff_rounds (b : Build) : LeastCover b seg ↔ seg.Rounds b :=
  ⟨fun hc => rounds_of_runs h hc.runs, leastCover_of_rounds h⟩

/- Both ranges end in 64 bits, so the test is the one on the rounded ends. -/
theorem overlapTest_eq {b : Build} (h' : Coverable seg') (hr : seg.Rounds b)
    (hr' : seg'.Rounds b) :
    overlapTest b seg seg' = .ok (decide (seg.lo < seg'.hi ∧ seg'.lo < seg.hi)) := by
  have hrun := Segment.pageRange_words (ε := VcpuError) h.filesz h.below hr
  have hrun' := Segment.pageRange_words (ε := VcpuError) h'.filesz h'.below hr'
  have htest := MemoryMap.overlaps_eq (ε := VcpuError) b
    (r := ⟨seg.start, seg.pageEnd - seg.start, seg.flags⟩) h.range_below h'.range_below
  dsimp only at htest
  rw [h'.range_end, h.range_end, Segment.toNat_start, Segment.toNat_start] at htest
  unfold overlapTest
  rw [hrun, hrun']
  exact htest

theorem testsPages_of_rounds {b : Build} (h' : Coverable seg') (hpos : 0 < seg.memsz.toNat)
    (hpos' : 0 < seg'.memsz.toNat) (hr : seg.Rounds b) (hr' : seg'.Rounds b) :
    TestsPages b seg seg' := by
  refine ⟨_, overlapTest_eq h h' hr hr', ?_⟩
  rw [decide_eq_true_eq]
  exact (shares_page_iff (by decide) hpos hpos').symm

theorem testsPages_iff_rounds (b : Build) (h' : Coverable seg') (hpos : 0 < seg.memsz.toNat)
    (hpos' : 0 < seg'.memsz.toNat) :
    TestsPages b seg seg' ↔ seg.Rounds b ∧ seg'.Rounds b := by
  constructor
  · intro ht
    obtain ⟨t, hrun, -⟩ := ht
    unfold overlapTest at hrun
    obtain ⟨r, hseg, hrest⟩ := Outcome.bind_eq_ok.mp hrun
    obtain ⟨r', hseg', -⟩ := Outcome.bind_eq_ok.mp hrest
    exact ⟨rounds_of_runs h hseg, rounds_of_runs h' hseg'⟩
  · intro hr
    exact testsPages_of_rounds h h' hpos hpos' hr.1 hr.2

end Cover

/-- The page rounding is the least cover, and the overlap test finds the shared pages,
exactly when a page above each end still fits in a debug build. -/
theorem leastCover_iff (b : Build) (seg : Segment) (h : Coverable seg) :
    (LeastCover b seg ↔ seg.Rounds b)
      ∧ ∀ seg', Coverable seg' → 0 < seg.memsz.toNat → 0 < seg'.memsz.toNat →
        (TestsPages b seg seg' ↔ seg.Rounds b ∧ seg'.Rounds b) :=
  ⟨leastCover_iff_rounds h b, fun _ h' => testsPages_iff_rounds h b h'⟩

def lastByte : Segment := ⟨0x400fff, 1, 1, [0x90], 5, 0x1000⟩

def nextByte : Segment := ⟨0x401000, 1, 0, [0], 6, 0x1000⟩

theorem lastByte_covered : LeastCover .debug lastByte ∧ TestsPages .debug lastByte nextByte :=
  ⟨(leastCover_iff .debug lastByte ⟨by decide, by decide⟩).1.mpr fun _ => by decide,
    ((leastCover_iff .debug lastByte ⟨by decide, by decide⟩).2 nextByte ⟨by decide, by decide⟩
      (by decide) (by decide)).mpr ⟨fun _ => by decide, fun _ => by decide⟩⟩

def pageBelowTop : Segment := ⟨0xffffffffffffeff0, 16, 0, List.replicate 16 0, 6, 0x1000⟩

theorem pageBelowTop_panics :
    Coverable pageBelowTop
      ∧ (Vcpu.pageRange .debug pageBelowTop : Outcome VcpuError _) = .fault .overflow
      ∧ ¬LeastCover .debug pageBelowTop := by
  have hfault : (Vcpu.pageRange .debug pageBelowTop : Outcome VcpuError _)
      = .fault .overflow := by decide
  refine ⟨⟨by decide, by decide⟩, hfault, ?_⟩
  intro h
  have hrun := h.runs
  rw [hfault] at hrun
  cases hrun

end WinVpwn.Cpu
