import WinVpwn.Vkernel.Mem
import WinVpwn.Cpu.Vcpu

/-!
# The pages of a segment

The mask arithmetic of `map_elf` against the rounding of its ends as numbers.
The one place where they part is the last page of the address space: a debug
build panics there, and a release build wraps twice and comes out right.
-/

namespace WinVpwn.Elf.Segment
open Rust Lib WinVpwn.Cpu

variable (seg : Segment)

/-- What a loaded segment satisfies. -/
structure Valid : Prop where
  filesz : seg.filesz.toNat ≤ seg.memsz.toNat
  memsz : seg.memsz.toNat ≤ isizeMax
  bounded : seg.vaddr.toNat + seg.memsz.toNat < addressEnd
  length : seg.data.length = seg.memsz.toNat

def lo : ℕ := pageDown pageBytes seg.vaddr.toNat

def hi : ℕ := pageUp pageBytes (seg.vaddr.toNat + seg.memsz.toNat)

def pages : Set ℕ := span seg.lo (seg.hi - seg.lo)

/-- A debug build can round the end of the segment. -/
def Rounds (b : Build) : Prop :=
  b = .debug → seg.vaddr.toNat + seg.memsz.toNat + pageBytes < addressEnd

variable {seg}

theorem lo_le_hi (seg : Segment) : seg.lo ≤ seg.hi := by
  have hlo := pageDown_le pageBytes seg.vaddr.toNat
  have hhi := le_pageUp (p := pageBytes) (by decide) (seg.vaddr.toNat + seg.memsz.toNat)
  unfold lo hi
  omega

theorem hi_le (hv : seg.Valid) : seg.hi ≤ addressEnd := by
  have hbound := hv.bounded
  unfold hi pageUp pageBytes
  unfold addressEnd at *
  omega

theorem hi_sub_lo_lt (hv : seg.Valid) : seg.hi - seg.lo < addressEnd := by
  have hpage : pageBytes = 0x1000 := rfl
  have hword : addressEnd = 2 ^ 64 := rfl
  have hmem := hv.memsz
  have hlo := lt_pageDown_add (p := pageBytes) (by decide) seg.vaddr.toNat
  have hhi := pageUp_lt (p := pageBytes) (by decide) (seg.vaddr.toNat + seg.memsz.toNat)
  unfold isizeMax at hmem
  unfold lo hi
  omega

theorem mem_pages (seg : Segment) {a : ℕ} (ha : a ∈ span seg.vaddr.toNat seg.memsz.toNat) : a ∈ seg.pages := by
  have hlo := pageDown_le pageBytes seg.vaddr.toNat
  have hhi := le_pageUp (p := pageBytes) (by decide) (seg.vaddr.toNat + seg.memsz.toNat)
  rw [mem_span] at ha
  rw [pages, mem_span, lo, hi]
  omega

/-! ### The mask arithmetic -/

theorem toNat_mask (x : U64) : (x &&& ~~~(PAGE_SIZE - 1)).toNat = pageDown pageBytes x.toNat :=
  toNat_and_not_mask x (PAGE_SIZE - 1) 12 rfl

theorem toNat_end (hfile : seg.filesz.toNat ≤ seg.memsz.toNat)
    (hbound : seg.vaddr.toNat + seg.memsz.toNat < addressEnd) :
    (max (seg.vaddr + seg.memsz) (seg.vaddr + seg.filesz)).toNat =
      seg.vaddr.toNat + seg.memsz.toNat := by
  have hword : addressEnd = 2 ^ 64 := rfl
  rw [toNat_max, toNat_add_of_lt seg.vaddr seg.memsz hbound,
    toNat_add_of_lt seg.vaddr seg.filesz (by omega)]
  omega

theorem toNat_roundUp (stop : U64) :
    ((stop + PAGE_SIZE - 1) &&& ~~~(PAGE_SIZE - 1)).toNat =
      pageUp pageBytes stop.toNat % addressEnd := by
  have hpage : PAGE_SIZE.toNat = pageBytes := rfl
  have hlt := stop.isLt
  rw [toNat_mask, BitVec.toNat_sub, BitVec.toNat_add, hpage]
  unfold pageUp pageDown pageBytes addressEnd
  show (2 ^ 64 - 1 + _) % 2 ^ 64 / 0x1000 * 0x1000 = _
  omega

/-- `start` as `map_elf` computes it. -/
def start (seg : Segment) : U64 := seg.vaddr &&& ~~~(PAGE_SIZE - 1)

/-- `page_end`, the sums taken modulo `2^64`. -/
def pageEnd (seg : Segment) : U64 :=
  (max (seg.vaddr + seg.memsz) (seg.vaddr + seg.filesz) + PAGE_SIZE - 1) &&& ~~~(PAGE_SIZE - 1)

theorem toNat_start (seg : Segment) : seg.start.toNat = seg.lo := toNat_mask seg.vaddr

theorem toNat_pageEnd (hfile : seg.filesz.toNat ≤ seg.memsz.toNat)
    (hbound : seg.vaddr.toNat + seg.memsz.toNat < addressEnd) :
    seg.pageEnd.toNat = seg.hi % 2 ^ 64 := by
  rw [pageEnd, toNat_roundUp, toNat_end hfile hbound]
  rfl

theorem pageRange_words {ε : Type} {b : Build} (hfile : seg.filesz.toNat ≤ seg.memsz.toNat)
    (hbound : seg.vaddr.toNat + seg.memsz.toNat < addressEnd) (hr : seg.Rounds b) :
    (Vcpu.pageRange b seg : Outcome ε _) = .ok (seg.start, seg.pageEnd - seg.start) := by
  have hpage : pageBytes = 0x1000 := rfl
  have hword : addressEnd = 2 ^ 64 := rfl
  have hend := toNat_end hfile hbound
  have hpage : PAGE_SIZE.toNat = 0x1000 := rfl
  have hup : b = .debug → seg.start.toNat ≤ seg.pageEnd.toNat := by
    intro hb
    have hlt := hr hb
    have hhi := pageUp_lt (p := pageBytes) (by decide) (seg.vaddr.toNat + seg.memsz.toNat)
    rw [toNat_start, toNat_pageEnd hfile hbound, Nat.mod_eq_of_lt (by unfold hi; omega)]
    exact lo_le_hi seg
  unfold pageEnd start at hup ⊢
  unfold Vcpu.pageRange
  rw [Build.add_eq b seg.vaddr seg.memsz hbound, Outcome.ok_bind,
    Build.add_eq b seg.vaddr seg.filesz (by omega), Outcome.ok_bind]
  generalize max (seg.vaddr + seg.memsz) (seg.vaddr + seg.filesz) = stop at hend hup ⊢
  have htop : b = .debug → stop.toNat + PAGE_SIZE.toNat < 2 ^ 64 := by
    intro hb
    have hlt := hr hb
    omega
  have hone : b = .debug → (1 : U64).toNat ≤ (stop + PAGE_SIZE).toNat := by
    intro hb
    rw [toNat_add_of_lt stop PAGE_SIZE (htop hb), hpage]
    show 1 ≤ _
    omega
  dsimp only
  rw [Build.add_eq_of b _ _ htop, Outcome.ok_bind, Build.sub_eq_of b _ _ hone, Outcome.ok_bind,
    Build.sub_eq_of b _ _ hup]
  rfl

theorem pageRange_overflows {ε : Type} {b : Build} (hfile : seg.filesz.toNat ≤ seg.memsz.toNat)
    (hbound : seg.vaddr.toNat + seg.memsz.toNat < addressEnd) (hr : ¬seg.Rounds b) :
    (Vcpu.pageRange b seg : Outcome ε _) = .fault .overflow := by
  have hpage : pageBytes = 0x1000 := rfl
  have hword : addressEnd = 2 ^ 64 := rfl
  have hend := toNat_end hfile hbound
  have hpage : PAGE_SIZE.toNat = 0x1000 := rfl
  unfold Rounds at hr
  push Not at hr
  obtain ⟨rfl, htop⟩ := hr
  unfold Vcpu.pageRange
  rw [Build.add_eq .debug seg.vaddr seg.memsz hbound, Outcome.ok_bind,
    Build.add_eq .debug seg.vaddr seg.filesz (by omega), Outcome.ok_bind]
  have hover : ¬(max (seg.vaddr + seg.memsz) (seg.vaddr + seg.filesz)).toNat + PAGE_SIZE.toNat <
      2 ^ 64 := by
    rw [hend, hpage]
    omega
  simp only [Build.add, if_neg hover, Outcome.fault_bind]

theorem pageRange_eq {ε : Type} {b : Build} (hv : seg.Valid) (hr : seg.Rounds b) :
    ∃ start size : U64, (Vcpu.pageRange b seg : Outcome ε _) = .ok (start, size) ∧
      start.toNat = seg.lo ∧ size.toNat = seg.hi - seg.lo := by
  have hword : addressEnd = 2 ^ 64 := rfl
  refine ⟨_, _, pageRange_words hv.filesz hv.bounded hr, toNat_start seg, ?_⟩
  have hlohi := lo_le_hi seg
  have hhi := hi_le hv
  have hsize := hi_sub_lo_lt hv
  rw [BitVec.toNat_sub, toNat_pageEnd hv.filesz hv.bounded, toNat_start]
  omega

theorem pageRange_fault {ε : Type} {b : Build} (hv : seg.Valid) (hr : ¬seg.Rounds b) :
    (Vcpu.pageRange b seg : Outcome ε _) = .fault .overflow :=
  pageRange_overflows hv.filesz hv.bounded hr

/-! ### The range as a claim -/

/-- The region `map_elf` claims for the segment. -/
def claim (seg : Segment) : Memory.Region where
  base := BitVec.ofNat 64 seg.lo
  size := BitVec.ofNat 64 (seg.hi - seg.lo)
  prot := seg.flags

theorem claim_base (seg : Segment) : seg.claim.base.toNat = seg.lo := by
  have hlo := pageDown_le pageBytes seg.vaddr.toNat
  have hlt := seg.vaddr.isLt
  show (BitVec.ofNat 64 seg.lo).toNat = seg.lo
  rw [BitVec.toNat_ofNat]
  unfold lo
  omega

theorem claim_size (hv : seg.Valid) : seg.claim.size.toNat = seg.hi - seg.lo := by
  have hword : addressEnd = 2 ^ 64 := rfl
  have hsize := hi_sub_lo_lt hv
  show (BitVec.ofNat 64 (seg.hi - seg.lo)).toNat = seg.hi - seg.lo
  rw [BitVec.toNat_ofNat]
  omega

theorem pageRange_claim {ε : Type} {b : Build} (hv : seg.Valid) (hr : seg.Rounds b) :
    (Vcpu.pageRange b seg : Outcome ε _) = .ok (seg.claim.base, seg.claim.size) := by
  obtain ⟨start, size, hrun, hstart, hsize⟩ := pageRange_eq (ε := ε) hv hr
  have hbase : start = seg.claim.base := BitVec.eq_of_toNat_eq (hstart.trans (claim_base seg).symm)
  have hlen : size = seg.claim.size := BitVec.eq_of_toNat_eq (hsize.trans (claim_size hv).symm)
  rw [hrun, hbase, hlen]

theorem claim_ends {b : Build} (hv : seg.Valid) (hr : seg.Rounds b) :
    Memory.MemoryMap.Ends b seg.claim.base seg.claim.size := by
  have hword : addressEnd = 2 ^ 64 := rfl
  have hlohi := lo_le_hi seg
  have hhi := hi_le hv
  unfold Memory.MemoryMap.Ends
  rw [claim_base, claim_size hv]
  refine ⟨by omega, fun hb => ?_⟩
  have hround := hr hb
  have htop := pageUp_lt (p := pageBytes) (by decide) (seg.vaddr.toNat + seg.memsz.toNat)
  unfold hi at hlohi ⊢
  omega

end WinVpwn.Elf.Segment
