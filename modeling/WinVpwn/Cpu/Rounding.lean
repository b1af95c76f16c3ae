import WinVpwn.Cpu.MapElf

/-!
# The arithmetic of page rounding

`load_elf` checks that a segment ends in 64 bits, and `map_elf` then adds a page
to the end. Less than a page below the top that sum does not fit.
-/

namespace WinVpwn.Cpu
open Rust Lib WinVpwn.Elf WinVpwn.Vkernel WinVpwn.Syscall

/-- No operation on the way to the page range of a segment overflows, nor does the
end that `insert` takes of it: a debug build computes what a release build does. -/
def NoOverflow (seg : Segment) : Prop :=
  ∃ start size : U64, (∀ b, (Vcpu.pageRange b seg : Outcome VcpuError _) = .ok (start, size)) ∧
    start.toNat + size.toNat < addressEnd

/-- A page above its end still fits. -/
def PageFits (seg : Segment) : Prop := seg.vaddr.toNat + seg.memsz.toNat + pageBytes < addressEnd

instance (seg : Segment) : Decidable (PageFits seg) := inferInstanceAs (Decidable (_ < _))

theorem noOverflow_iff {seg : Segment} (hv : seg.Valid) : NoOverflow seg ↔ PageFits seg := by
  constructor
  · intro h
    obtain ⟨start, size, hrun, -⟩ := h
    by_contra htop
    have hfault := Segment.pageRange_fault (ε := VcpuError) (b := .debug) hv (fun hr => htop (hr rfl))
    rw [hrun] at hfault
    cases hfault
  · intro h
    have hrounds : ∀ b, seg.Rounds b := fun _ _ => h
    exact ⟨seg.claim.base, seg.claim.size, fun b => Segment.pageRange_claim hv (hrounds b),
      (Segment.claim_ends hv (hrounds .debug)).2 rfl⟩

/-- On an accepted image the rounding of a segment stays in 64 bits exactly when a
page above its end does; where all of them do, a debug build maps the image without
a panic. -/
theorem rounding_iff (b : Build) (parse : Image → Except String ParsedElf) (image : Image)
    (elf : LoadedElf) (hload : loadElf b parse image = .ok elf) :
    (∀ seg ∈ elf.segments, NoOverflow seg ↔ PageFits seg) ∧
    ((∀ seg ∈ elf.segments, PageFits seg) → ∀ (U : Type) [LawfulUnicorn U]
      (dispatch : Dispatch (UnicornGuest U)) (uc : U),
      LawfulUnicorn.space uc = AddressSpace.empty →
        (Vcpu.mapElf .debug elf (Vcpu.new dispatch uc)).1.Returns) := by
  have hvalid := loadElf_valid hload
  refine ⟨fun seg hseg => noOverflow_iff (hvalid seg hseg), ?_⟩
  intro hfit U _ dispatch uc huc
  unfold Vcpu.mapElf
  rcases mapLoop_cases elf.segments (mapInv_new .debug dispatch huc) hvalid
    (fun seg hseg _ => hfit seg hseg) with ⟨v', hrun, -⟩ | ⟨-, e, v', hrun⟩
  · rw [hrun]
    exact Outcome.returns_ok ()
  · rw [hrun]
    exact Outcome.returns_err e

theorem twoPages_rounding :
    (∀ seg ∈ twoPagesElf.segments, NoOverflow seg ↔ PageFits seg) ∧
    ((∀ seg ∈ twoPagesElf.segments, PageFits seg) → ∀ (U : Type) [LawfulUnicorn U]
      (dispatch : Dispatch (UnicornGuest U)) (uc : U),
      LawfulUnicorn.space uc = AddressSpace.empty →
        (Vcpu.mapElf .debug twoPagesElf (Vcpu.new dispatch uc)).1.Returns) :=
  rounding_iff .debug (fun _ => .ok twoPages.parsed) twoPagesImage twoPagesElf twoPages_loads

def lastPage : Exec64 where
  littleEndian := true
  entry := 0xfffffffffffff078
  programHeaders := [⟨PT_LOAD, 5, 0x78, 0xfffffffffffff078, 2, 16, 0x1000⟩]
  body := [0xeb, 0xfe]

def lastPageImage : Image := ⟨lastPage.bytes, by decide +kernel⟩

def lastPageElf : LoadedElf where
  entry := 0xfffffffffffff078
  segments := [⟨0xfffffffffffff078, 16, 2, 0xeb :: 0xfe :: List.replicate 14 0, 5, 0x1000⟩]
  isPie := false

theorem lastPage_overflows :
    loadElf .debug (fun _ => .ok lastPage.parsed) lastPageImage = .ok lastPageElf ∧
    (∃ seg ∈ lastPageElf.segments, ¬NoOverflow seg) ∧
    (Vcpu.mapElf .debug lastPageElf (Vcpu.new (stage1 .debug none) FlatEngine.new)).1 =
      .fault .overflow := by
  have hload : loadElf .debug (fun _ => .ok lastPage.parsed) lastPageImage = .ok lastPageElf := by
    decide +kernel
  refine ⟨hload, ⟨_, List.mem_singleton_self _, ?_⟩, by decide +kernel⟩
  rw [noOverflow_iff (loadElf_valid hload _ (List.mem_singleton_self _))]
  decide

end WinVpwn.Cpu
