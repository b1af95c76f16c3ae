import WinVpwn.Elf.LoadElf
import WinVpwn.Memory.InsertOrder

/-!
# The order of the program headers

The loop accepts the `PT_LOAD` headers when each is in bounds, each fits its buffer
and no two meet. None of this depends on their order, and each header gets its
segment from the image alone.
-/

namespace WinVpwn.Elf
open Rust Lib WinVpwn.Memory

/-- The segment loop ends in `Ok` on the headers `ps`, in the state `st`. -/
def LoopEnds (b : Build) (image : Image) (ps : List ProgramHeader) (st : LoadState) : Prop :=
  ps.forM (loadPhdr b image) ⟨[], MemoryMap.new⟩ = (.ok (), st)

theorem loopEnds_iff (b : Build) (image : Image) (ps : List ProgramHeader) :
    (∃ st, LoopEnds b image ps st) ↔ Accepts image ps ∧ ∀ p ∈ ps, p.Sized := by
  unfold LoopEnds
  rcases loadLoop_start b image ps with
    ⟨hacc, -, e, st', hrun⟩ | ⟨hfit, f, st', hrun⟩ | ⟨hacc, hfit, st', hrun, -⟩
  · rw [hrun]
    refine iff_of_false ?_ fun h => hacc h.1
    intro h
    obtain ⟨st, hst⟩ := h
    cases hst
  · rw [hrun]
    refine iff_of_false ?_ fun h => hfit (buffersFit_of_sized image h.2)
    intro h
    obtain ⟨st, hst⟩ := h
    cases hst
  · exact iff_of_true ⟨st', hrun⟩ ⟨hacc, sized_of_accepts hfit hacc⟩

theorem LoopEnds.segments {b : Build} {image : Image} {ps : List ProgramHeader} {st : LoadState}
    (h : LoopEnds b image ps st) : st.segments = ps.map (·.segment image) := by
  unfold LoopEnds at h
  rcases loadLoop_start b image ps with
    ⟨-, -, e, st', hrun⟩ | ⟨-, f, st', hrun⟩ | ⟨-, -, st', hrun, hinv⟩
  · rw [hrun] at h
    cases h
  · rw [hrun] at h
    cases h
  · rw [hrun] at h
    cases h
    exact hinv.segments

theorem accepts_perm {image : Image} {ps ps' : List ProgramHeader} (h : ps.Perm ps') :
    Accepts image ps → Accepts image ps' := by
  intro hacc
  obtain ⟨hbounds, hdisj⟩ := hacc
  exact ⟨fun p hp => hbounds p (h.mem_iff.mpr hp), h.pairwise hdisj fun hpq => hpq.symm⟩

theorem loopEnds_perm (b : Build) (image : Image) {ps ps' : List ProgramHeader}
    (h : ps.Perm ps') : (∃ st, LoopEnds b image ps st) ↔ ∃ st, LoopEnds b image ps' st := by
  rw [loopEnds_iff, loopEnds_iff]
  apply and_congr
  · exact ⟨accepts_perm h, accepts_perm h.symm⟩
  · exact ⟨fun hp p hmem => hp p (h.mem_iff.mpr hmem), fun hp p hmem => hp p (h.mem_iff.mp hmem)⟩

/-- The order of segments does not matter: neither to a list of claims on an empty map,
nor to the segment loop over the headers of an image. -/
theorem segment_order_irrelevant (b : Build) :
    (∀ calls calls' : List Region, calls.Perm calls' →
      (∀ r ∈ calls, r.base.toNat + r.size.toNat < 2 ^ 64) →
      (MemoryMap.AllInserted b calls ↔ MemoryMap.AllInserted b calls')
        ∧ (MemoryMap.AllInserted b calls →
          (MemoryMap.after b calls).regions = (MemoryMap.after b calls').regions))
    ∧ ∀ (image : Image) (elf elf' : ParsedElf), elf.programHeaders.Perm elf'.programHeaders →
      ((∃ st, LoopEnds b image elf.loads st) ↔ ∃ st, LoopEnds b image elf'.loads st)
        ∧ ∀ st st', LoopEnds b image elf.loads st → LoopEnds b image elf'.loads st' →
          st.segments.Perm st'.segments
            ∧ ∃ segment : ProgramHeader → Segment,
              st.segments = elf.loads.map segment ∧ st'.segments = elf'.loads.map segment := by
  constructor
  · intro calls calls' hperm hcalls
    exact ⟨MemoryMap.allInserted_perm b hperm hcalls, MemoryMap.regions_perm b hperm hcalls⟩
  · intro image elf elf' hperm
    have hloads : elf.loads.Perm elf'.loads := hperm.filter _
    refine ⟨loopEnds_perm b image hloads, ?_⟩
    intro st st' hst hst'
    refine ⟨?_, fun p => p.segment image, hst.segments, hst'.segments⟩
    rw [hst.segments, hst'.segments]
    exact hloads.map _

def threeRanges : List Region := [⟨0x1000, 0x1000, 5⟩, ⟨0x1800, 0, 6⟩, ⟨0x2000, 0x800, 6⟩]

def threeRangesTurned : List Region := [⟨0x2000, 0x800, 6⟩, ⟨0x1800, 0, 6⟩, ⟨0x1000, 0x1000, 5⟩]

def jumpSelfTurned : ParsedElf :=
  { jumpSelf.parsed with programHeaders := jumpSelf.parsed.programHeaders.reverse }

theorem threeRanges_order_irrelevant :
    (MemoryMap.after .debug threeRanges).regions = [⟨0x1000, 0x1000, 5⟩, ⟨0x2000, 0x800, 6⟩]
      ∧ (MemoryMap.AllInserted .debug threeRanges
        ↔ MemoryMap.AllInserted .debug threeRangesTurned)
      ∧ ((∃ st, LoopEnds .debug jumpSelfImage jumpSelf.parsed.loads st)
        ↔ ∃ st, LoopEnds .debug jumpSelfImage jumpSelfTurned.loads st) :=
  ⟨by decide,
    ((segment_order_irrelevant .debug).1 threeRanges threeRangesTurned (by decide)
      (by decide)).1,
    ((segment_order_irrelevant .debug).2 jumpSelfImage jumpSelf.parsed jumpSelfTurned
      (by decide)).1⟩

end WinVpwn.Elf
