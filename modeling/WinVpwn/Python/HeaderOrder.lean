import WinVpwn.Cpu.ReadBack
import WinVpwn.Elf.HeaderOrder
import WinVpwn.Python.EngineSwap

/-!
# `run_elf` and the order of the program headers

Two images that list the same program headers in two orders are loaded into the same guest
and run the same, provided no segment takes file bytes in which they differ, as one that
covers the header table does. Only an image that is refused may be refused otherwise.
-/

namespace WinVpwn.Python
open Rust Lib WinVpwn.Elf WinVpwn.Cpu WinVpwn.Syscall WinVpwn.Trace WinVpwn.Vkernel

/-- The bytes a header takes from the file. -/
def fileOf (image : Image) (p : ProgramHeader) : List U8 :=
  (image.bytes.drop p.pOffset.toNat).take p.pFilesz.toNat

/-- Two images with the same file header and the same program headers in another order;
their bytes may differ where no segment is taken from. -/
structure Shuffled (image image' : Image) (elf elf' : ParsedElf) : Prop where
  is64 : elf.is64 = elf'.is64
  machine : elf.eMachine = elf'.eMachine
  type : elf.eType = elf'.eType
  entry : elf.entry = elf'.entry
  headers : elf.programHeaders.Perm elf'.programHeaders
  length : image.bytes.length = image'.bytes.length
  magic : image.bytes.take 4 = image'.bytes.take 4
  files : ∀ p ∈ elf.loads, fileOf image p = fileOf image' p

namespace Shuffled
variable {image image' : Image} {elf elf' : ParsedElf} (h : Shuffled image image' elf elf')
include h

theorem loads : elf.loads.Perm elf'.loads := h.headers.filter _

theorem symm : Shuffled image' image elf' elf where
  is64 := h.is64.symm
  machine := h.machine.symm
  type := h.type.symm
  entry := h.entry.symm
  headers := h.headers.symm
  length := h.length.symm
  magic := h.magic.symm
  files p hp := (h.files p (h.loads.mem_iff.mpr hp)).symm

theorem headerOk (hok : HeaderOk image elf) : HeaderOk image' elf' := by
  refine ⟨?_, h.is64 ▸ hok.is64, h.machine ▸ hok.machine, h.type ▸ hok.type⟩
  have hmagic := List.prefix_iff_eq_take.mp hok.magic
  exact List.prefix_iff_eq_take.mpr (hmagic.trans h.magic)

theorem accepts (hacc : Accepts image elf.loads) : Accepts image' elf'.loads := by
  obtain ⟨hbounds, hdisj⟩ := accepts_perm h.loads hacc
  refine ⟨fun p hp => ⟨(hbounds p hp).guest, ?_⟩, hdisj⟩
  rw [← h.length]
  exact (hbounds p hp).file

theorem segments : (elf.loads.map (·.segment image)).Perm (elf'.loads.map (·.segment image')) := by
  have hsame : elf.loads.map (·.segment image) = elf.loads.map (·.segment image') := by
    apply List.map_congr_left
    intro p hp
    have hfile := h.files p hp
    unfold fileOf at hfile
    rw [ProgramHeader.segment, hfile]
    rfl
  rw [hsame]
  exact h.loads.map _

end Shuffled

/-! ### Loading -/

theorem loadElf_shuffled {b : Build} {parse : Image → Except String ParsedElf}
    {image image' : Image} {elf elf' : ParsedElf} (hp : parse image = .ok elf)
    (hp' : parse image' = .ok elf') (hs : Shuffled image image' elf elf') {out : LoadedElf}
    (hload : loadElf b parse image = .ok out) :
    ∃ out', loadElf b parse image' = .ok out' ∧ out.segments.Perm out'.segments ∧
      out.entry = out'.entry := by
  obtain ⟨elf₁, hp₁, ⟨hok, hne, hacc⟩, hsized, rfl⟩ := loadElf_eq_ok b hload
  rw [hp, Except.ok.injEq] at hp₁
  subst hp₁
  have hne' : elf'.loads ≠ [] := fun h => hne (List.perm_nil.mp (h ▸ hs.loads))
  have hsized' : ∀ p ∈ elf'.loads, p.Sized := fun p hp => hsized p (hs.loads.mem_iff.mpr hp)
  rcases loadElf_cases b hp' with ⟨-, hfit, -⟩ | ⟨-, hbad, -⟩ | ⟨-, -, hrun⟩
  · exact absurd (buffersFit_of_sized image' hsized') hfit
  · exact absurd ⟨hs.headerOk hok, hne', hs.accepts hacc⟩ hbad
  · exact ⟨_, hrun, hs.segments, hs.entry⟩

theorem fits_perm {segs segs' : List Segment} (h : segs.Perm segs') (hfits : Fits segs) :
    Fits segs' := by
  obtain ⟨⟨hpos, hdisj⟩, hstack⟩ := hfits
  refine ⟨⟨fun s hs => hpos s (h.mem_iff.mpr hs), ?_⟩, fun s hs => hstack s (h.mem_iff.mpr hs)⟩
  exact h.pairwise hdisj fun hst => hst.symm

theorem overflows_iff_of_fits {b : Build} {segs : List Segment} (hfits : Fits segs) :
    Overflows b segs ↔ ∃ seg ∈ segs, ¬seg.Rounds b := by
  constructor
  · intro h
    obtain ⟨pre, seg, post, rfl, -, hr⟩ := h
    exact ⟨seg, List.mem_append_right _ (List.mem_cons_self ..), hr⟩
  · intro h
    obtain ⟨seg, hseg, hr⟩ := h
    obtain ⟨pre, post, rfl⟩ := List.append_of_mem hseg
    exact ⟨pre, seg, post, rfl, placed_of_append (seg :: post) hfits.placed, hr⟩

/-! ### Preparing -/

section Prepare
variable {U : Type} [FramedUnicorn U]

theorem prepare_regRead {b : Build} {elf : LoadedElf} {v v' : Vcpu U}
    (hrun : Vcpu.prepare b elf v = (.ok (), v')) {r : RegisterX86} (hr : r.Named) (hrsp : r ≠ .RSP)
    (hrip : r ≠ .RIP) : Unicorn.regRead v'.uc r = Unicorn.regRead v.uc r := by
  have hother : ∀ s : RegisterX86, s.Named → r ≠ s → ∀ (uc : U) value,
      Unicorn.regRead (Unicorn.regWrite s value uc).2 r = Unicorn.regRead uc r := by
    intro s hs hne uc value
    obtain ⟨uc', hwrite⟩ := LawfulUnicorn.regWrite_ok uc hs value
    rw [hwrite]
    exact LawfulUnicorn.regRead_regWrite_of_ne hs hr hne.symm hwrite
  have hkept := (mapFrame_regRead r).prepare (b := b) (hother .RSP trivial hrsp)
    (hother .RIP trivial hrip) elf v
  rw [hrun] at hkept
  exact hkept

theorem mapFrame_stop :
    MapFrame fun uc uc' : U => LawfulUnicorn.stopRequested uc' = LawfulUnicorn.stopRequested uc where
  refl _ := rfl
  trans _ _ _ h h' := h'.trans h
  memMap uc base size prot := FramedUnicorn.stop_memMap uc base size prot
  memWrite uc addr data := FramedUnicorn.stop_memWrite uc addr data

theorem prepare_stop {b : Build} {elf : LoadedElf} {v v' : Vcpu U}
    (hrun : Vcpu.prepare b elf v = (.ok (), v')) :
    LawfulUnicorn.stopRequested v'.uc = LawfulUnicorn.stopRequested v.uc := by
  have hset : ∀ r : RegisterX86, r.Named → ∀ (uc : U) value,
      LawfulUnicorn.stopRequested (Unicorn.regWrite r value uc).2 = LawfulUnicorn.stopRequested uc :=
    fun r hr uc value => FramedUnicorn.stop_regWrite uc hr value
  have hkept := mapFrame_stop.prepare (b := b) (hset .RSP trivial) (hset .RIP trivial) elf v
  rw [hrun] at hkept
  exact hkept

theorem prepare_shuffled {b : Build} {out out' : LoadedElf} (hv : ∀ seg ∈ out.segments, seg.Valid)
    (hsegs : out.segments.Perm out'.segments) (hentry : out.entry = out'.entry)
    (dispatch : Dispatch (UnicornGuest U)) {uc : U} (huc : LawfulUnicorn.space uc = AddressSpace.empty)
    {v w : Vcpu U} (hrun : Vcpu.prepare b out (Vcpu.new dispatch uc) = (.ok (), v))
    (hrun' : Vcpu.prepare b out' (Vcpu.new dispatch uc) = (.ok (), w)) : SameView v.uc w.uc := by
  have hv' : ∀ seg ∈ out'.segments, seg.Valid := fun seg hseg => hv seg (hsegs.mem_iff.mpr hseg)
  obtain ⟨hspace, hapart, hclear, hrip, hrsp⟩ := prepare_ok hv dispatch huc hrun
  obtain ⟨hspace', -, -, hrip', hrsp'⟩ := prepare_ok hv' dispatch huc hrun'
  constructor
  case space =>
    rw [hspace, hspace']
    apply AddressSpace.loadAll_perm _ _ (startPieces_inside hv) (startPieces_disjoint hapart hclear)
    exact (hsegs.map segmentPiece).append_right _
  case regs =>
    intro r hr
    unfold regReadOrZero
    by_cases hisRip : r = .RIP
    · rw [hisRip, hrip, hrip', hentry]
    by_cases hisRsp : r = .RSP
    · rw [hisRsp, hrsp, hrsp']
    rw [prepare_regRead hrun hr hisRsp hisRip, prepare_regRead hrun' hr hisRsp hisRip]
  case stop => rw [prepare_stop hrun, prepare_stop hrun']

end Prepare

/-! ### The call -/

section Shuffle
variable {U : Type} [FramedUnicorn U]

theorem ready_shuffled {h : Host U} (hh : h.Lawful) {image image' : Image} {elf elf' : ParsedElf}
    (hp : h.parse image = .ok elf) (hp' : h.parse image' = .ok elf')
    (hs : Shuffled image image' elf elf') {v : Vcpu U} (hready : ready h image = .ok v) :
    ∃ w, ready h image' = .ok w ∧ Alike h.build v w ∧ SameView v.uc w.uc := by
  have hcases := ready_readied hh image
  rw [hready] at hcases
  cases hcases with
  | started out uc v hload hnew hfits hround hrun =>
    obtain ⟨out', hload', hsegs, hentry⟩ := loadElf_shuffled hp hp' hs hload
    have hfits' := fits_perm hsegs hfits
    rcases ready_segments hh hload' hnew with
      ⟨w, hready', -, -, hrun'⟩ | ⟨-, hover⟩ | ⟨base, reason, -, hbusy, -⟩
    · have hquiet := quiet_prepare h.build out (Vcpu.new (runDispatch h.build) uc)
      have hquiet' := quiet_prepare h.build out' (Vcpu.new (runDispatch h.build) uc)
      rw [hrun] at hquiet
      rw [hrun'] at hquiet'
      refine ⟨w, hready', ⟨?_, ?_, ?_, ?_⟩,
        prepare_shuffled (loadElf_valid hload) hsegs hentry _ (hh.fresh uc hnew) hrun hrun'⟩
      · rw [hquiet.dispatch]
        exact stage1_isStage1 h.build none
      · rw [hquiet'.dispatch]
        exact stage1_isStage1 h.build none
      · rw [hquiet.dispatch, hquiet'.dispatch]
      · rw [hquiet.shared, hquiet'.shared]
    · obtain ⟨seg, hseg, hr⟩ := (overflows_iff_of_fits hfits').mp hover
      exact absurd ((overflows_iff_of_fits hfits).mpr ⟨seg, hsegs.mem_iff.mpr hseg, hr⟩) hround
    · exact absurd hfits' hbusy

end Shuffle

/-- The greeting with a page of zeros, its file bytes after a table of two headers. -/
def greetingBss : Exec64 :=
  { greeting with programHeaders := [⟨PT_LOAD, 5, 0xb0, 0x400078, 36, 36, 0x1000⟩,
    ⟨PT_LOAD, 6, 0xb0, 0x500000, 0, 0x1000, 0x1000⟩] }

def greetingBssImage : Image := ⟨greetingBss.bytes, by decide +kernel⟩

def bssGreeting : Exec64 :=
  { greetingBss with programHeaders := greetingBss.programHeaders.reverse }

def bssGreetingImage : Image := ⟨bssGreeting.bytes, by decide +kernel⟩

def eitherOrder : Host FlatEngine :=
  { hostOf greetingBss with
    parse := fun image => .ok (if image = bssGreetingImage then bssGreeting.parsed else greetingBss.parsed) }

example : greetingBssImage ≠ bssGreetingImage ∧
    runElf eitherOrder bssGreetingImage 0 = .ok greetingReport := by
  decide +kernel

end WinVpwn.Python
