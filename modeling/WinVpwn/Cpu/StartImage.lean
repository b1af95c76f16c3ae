import WinVpwn.Cpu.MapElf

/-!
# What the guest starts with

After the three calls that prepare a guest, the address space of the engine is
the segments and the stack, each in pages of its own, so that what a header says
about its bytes can be read off the engine.
-/

namespace WinVpwn.Cpu
open Rust Lib WinVpwn.Memory WinVpwn.Elf WinVpwn.Vkernel WinVpwn.Syscall

def stackRange : Set ℕ := span STACK_BASE.toNat STACK_SIZE.toNat

/-- The stack with its initial frame in place. -/
def stackPiece : AddressSpace.Piece Prot U8 where
  base := STACK_BASE.toNat
  size := STACK_SIZE.toNat
  attr := Prot.READ ||| Prot.WRITE
  addr := (STACK_BASE + STACK_SIZE - 0x20).toNat
  data := List.replicate 0x20 0

theorem stackPiece_range : stackPiece.range = stackRange := rfl

theorem stackPiece_inside : stackPiece.Inside := by
  unfold AddressSpace.Piece.Inside
  decide

theorem frame_subset : span (STACK_BASE + STACK_SIZE - 0x20).toNat 0x20 ⊆ stackRange := by
  have hbase : STACK_BASE.toNat = 0x7ffffffde000 := rfl
  have hsize : STACK_SIZE.toNat = 0x20000 := rfl
  have hframe : (STACK_BASE + STACK_SIZE - 0x20).toNat = 0x7fffffffdfe0 := by decide
  intro a ha
  rw [hframe, mem_span] at ha
  unfold stackRange
  rw [hbase, hsize, mem_span]
  omega

theorem stackPiece_byteAt (a : ℕ) : stackPiece.byteAt a = 0 :=
  stackPiece.byteAt_eq_zero (fun _ hx => List.eq_of_mem_replicate hx) a

/-! ### The preparation -/

section Prepare
variable {U : Type} [LawfulUnicorn U]

omit [LawfulUnicorn U] in
theorem onEngine_eq_ok [Unicorn U] {α : Type} {f : String → VcpuError} {call : U → Except String α × U}
    {v v' : Vcpu U} {a : α} :
    Vcpu.onEngine f call v = (.ok a, v') ↔
      ∃ uc, call v.uc = (.ok a, uc) ∧ v' = { v with uc := uc } := by
  unfold Vcpu.onEngine Act.zoom engineCall
  rcases call v.uc with ⟨res, uc⟩
  cases res with
  | ok x => simp [eq_comm]
  | error e => simp

theorem rounds_of_mapSegment {b : Build} {seg : Segment} (hv : seg.Valid) {v v' : Vcpu U}
    (h : Vcpu.mapSegment b seg v = (.ok (), v')) : seg.Rounds b := by
  by_contra hr
  unfold Vcpu.mapSegment at h
  rw [Act.bind_of_fault (p := .overflow) (t := v)
    (by rw [Act.lift_apply, Segment.pageRange_fault hv hr])] at h
  cases h

theorem mapElf_ok {b : Build} {elf : LoadedElf} (hv : ∀ seg ∈ elf.segments, seg.Valid)
    (dispatch : Dispatch (UnicornGuest U)) {uc : U} (huc : LawfulUnicorn.space uc = AddressSpace.empty)
    {v : Vcpu U} (h : Vcpu.mapElf b elf (Vcpu.new dispatch uc) = (.ok (), v)) :
    MapInv b elf.segments v := by
  have hround : ∀ seg ∈ elf.segments, seg.Rounds b := by
    intro seg hseg
    obtain ⟨s, t, hrun⟩ := Act.forM_ok_mem h seg hseg
    exact rounds_of_mapSegment (hv seg hseg) hrun
  unfold Vcpu.mapElf at h
  rcases mapLoop_cases elf.segments (mapInv_new b dispatch huc) hv hround with
    ⟨v', hrun, hinv⟩ | ⟨-, e, v', hrun⟩
  · rw [hrun] at h
    cases h
    exact hinv
  · rw [hrun] at h
    cases h

theorem mapStack_ok {b : Build} {segs : List Segment} {v v' : Vcpu U} (hinv : MapInv b segs v)
    (h : Vcpu.mapStack b STACK_BASE STACK_SIZE v = (.ok (), v')) :
    LawfulUnicorn.space v'.uc = (LawfulUnicorn.space v.uc).map STACK_BASE.toNat STACK_SIZE.toNat
        (Prot.READ ||| Prot.WRITE) ∧
      ∀ seg ∈ segs, Disjoint seg.pages stackRange := by
  unfold Vcpu.mapStack Vcpu.mapMemory at h
  have hends : MemoryMap.Ends b STACK_BASE STACK_SIZE := ⟨by decide, fun _ => by decide⟩
  rcases mapRange_cases hinv.tracked 0 (Prot.READ ||| Prot.WRITE) hends with
    ⟨hfree, v₁, hrun, -, hspace⟩ | ⟨-, e, v₁, hrun⟩
  · rw [Act.bind_of_ok hrun] at h
    cases h
    refine ⟨hspace, fun seg hseg => hfree.clear (segmentPiece seg).mapping ?_⟩
    rw [hinv.space]
    exact (AddressSpace.mem_mappings_loadAll ..).mpr
      (Or.inr ⟨_, List.mem_map_of_mem hseg, rfl⟩)
  · rw [Act.bind_of_err hrun] at h
    cases h

theorem setupInitialState_ok {b : Build} {entry : U64} {v v' : Vcpu U}
    (h : Vcpu.setupInitialState b entry (STACK_BASE + STACK_SIZE) v = (.ok (), v')) :
    LawfulUnicorn.space v'.uc =
        (LawfulUnicorn.space v.uc).store stackPiece.addr stackPiece.data ∧
      Unicorn.regRead v'.uc .RIP = .ok entry ∧
      Unicorn.regRead v'.uc .RSP = .ok (STACK_BASE + STACK_SIZE - 0x20) := by
  have hsub : (b.sub (STACK_BASE + STACK_SIZE) 0x20 : Outcome VcpuError U64) =
      .ok (STACK_BASE + STACK_SIZE - 0x20) := Build.sub_eq b _ _ (by decide)
  unfold Vcpu.setupInitialState at h
  rw [Act.bind_of_ok (t := v) (by rw [Act.lift_apply, hsub])] at h
  obtain ⟨_, v₁, h₁, h⟩ := Act.bind_eq_ok.mp h
  obtain ⟨_, v₂, h₂, h₃⟩ := Act.bind_eq_ok.mp h
  obtain ⟨uc₁, hframe, rfl⟩ := onEngine_eq_ok.mp h₁
  obtain ⟨uc₂, hrsp, rfl⟩ := onEngine_eq_ok.mp h₂
  obtain ⟨uc₃, hrip, rfl⟩ := onEngine_eq_ok.mp h₃
  refine ⟨?_, LawfulUnicorn.regRead_regWrite trivial hrip, ?_⟩
  · have hs₂ := LawfulUnicorn.space_regWrite uc₁ .RSP (STACK_BASE + STACK_SIZE - 0x20)
    have hs₃ := LawfulUnicorn.space_regWrite uc₂ .RIP entry
    rw [hrsp] at hs₂
    rw [hrip] at hs₃
    exact hs₃.trans (hs₂.trans (LawfulUnicorn.space_memWrite hframe))
  · have hkeep := LawfulUnicorn.regRead_regWrite_of_ne (r := .RIP) (s := .RSP) trivial trivial
      (by decide) hrip
    exact hkeep.trans (LawfulUnicorn.regRead_regWrite trivial hrsp)

def startPieces (elf : LoadedElf) : List (AddressSpace.Piece Prot U8) :=
  elf.segments.map segmentPiece ++ [stackPiece]

theorem startPieces_inside {elf : LoadedElf} (hv : ∀ seg ∈ elf.segments, seg.Valid) :
    ∀ p ∈ startPieces elf, p.Inside := by
  intro p hp
  rcases List.mem_append.mp hp with hp | hp
  · obtain ⟨seg, hseg, rfl⟩ := List.mem_map.mp hp
    exact segmentPiece_inside (hv seg hseg)
  · rw [List.mem_singleton.mp hp]
    exact stackPiece_inside

theorem segmentPiece_mem {elf : LoadedElf} {seg : Segment} (hseg : seg ∈ elf.segments) :
    segmentPiece seg ∈ startPieces elf :=
  List.mem_append_left _ (List.mem_map_of_mem hseg)

theorem stackPiece_mem (elf : LoadedElf) : stackPiece ∈ startPieces elf :=
  List.mem_append_right _ (List.mem_singleton_self stackPiece)

theorem startPieces_disjoint {elf : LoadedElf}
    (hapart : elf.segments.Pairwise fun s t => Disjoint s.pages t.pages)
    (hclear : ∀ seg ∈ elf.segments, Disjoint seg.pages stackRange) :
    (startPieces elf).Pairwise fun p q => Disjoint p.range q.range := by
  apply List.pairwise_append.mpr
  refine ⟨List.pairwise_map.mpr hapart, List.pairwise_singleton _ _, ?_⟩
  intro p hp q hq
  obtain ⟨seg, hseg, rfl⟩ := List.mem_map.mp hp
  rw [List.mem_singleton.mp hq]
  exact hclear seg hseg

theorem mapped_startPieces (elf : LoadedElf) (a : ℕ) :
    (AddressSpace.empty.loadAll (startPieces elf)).Mapped a ↔
      (∃ seg ∈ elf.segments, a ∈ seg.pages) ∨ a ∈ stackRange := by
  rw [AddressSpace.mapped_loadAll_empty]
  constructor
  · intro h
    obtain ⟨q, hq, ha⟩ := h
    rcases List.mem_append.mp hq with hq | hq
    · obtain ⟨seg, hseg, rfl⟩ := List.mem_map.mp hq
      exact Or.inl ⟨seg, hseg, ha⟩
    · rw [List.mem_singleton.mp hq, stackPiece_range] at ha
      exact Or.inr ha
  · intro h
    rcases h with ⟨seg, hseg, ha⟩ | ha
    · exact ⟨_, segmentPiece_mem hseg, ha⟩
    · exact ⟨stackPiece, stackPiece_mem elf, stackPiece_range ▸ ha⟩

theorem prepare_ok {b : Build} {elf : LoadedElf} (hv : ∀ seg ∈ elf.segments, seg.Valid)
    (dispatch : Dispatch (UnicornGuest U)) {uc : U} (huc : LawfulUnicorn.space uc = AddressSpace.empty)
    {v : Vcpu U} (h : Vcpu.prepare b elf (Vcpu.new dispatch uc) = (.ok (), v)) :
    LawfulUnicorn.space v.uc = AddressSpace.empty.loadAll (startPieces elf) ∧
      (elf.segments.Pairwise fun s t => Disjoint s.pages t.pages) ∧
      (∀ seg ∈ elf.segments, Disjoint seg.pages stackRange) ∧
      Unicorn.regRead v.uc .RIP = .ok elf.entry ∧
      Unicorn.regRead v.uc .RSP = .ok (STACK_BASE + STACK_SIZE - 0x20) := by
  unfold Vcpu.prepare at h
  obtain ⟨_, v₁, hmap, h⟩ := Act.bind_eq_ok.mp h
  obtain ⟨_, v₂, hstack, hsetup⟩ := Act.bind_eq_ok.mp h
  have hinv := mapElf_ok hv dispatch huc hmap
  obtain ⟨hspace₂, hclear⟩ := mapStack_ok hinv hstack
  obtain ⟨hspace₃, hrip, hrsp⟩ := setupInitialState_ok hsetup
  refine ⟨?_, hinv.placed.disjoint, hclear, hrip, hrsp⟩
  rw [hspace₃, hspace₂, hinv.space, startPieces, AddressSpace.loadAll_append]
  rfl

end Prepare

/-! ### Reading it off the engine -/

theorem protOf_eq (flags : U32) :
    Vcpu.protOf flags = ⟨flags.getLsbD 2, flags.getLsbD 1, flags.getLsbD 0⟩ := by
  have hbit : ∀ i < 32, (flags &&& BitVec.twoPow 32 i ≠ 0) ↔ flags.getLsbD i = true := by
    intro i hi
    rw [BitVec.and_twoPow]
    split_ifs with h
    · refine ⟨fun _ => h, fun _ hzero => ?_⟩
      have hval := congrArg (BitVec.getLsbD · i) hzero
      simp [hi] at hval
    · exact ⟨fun hne => absurd rfl hne, fun ht => absurd ht h⟩
  have h₂ : (flags &&& 0x4 ≠ 0) ↔ flags.getLsbD 2 = true := hbit 2 (by decide)
  have h₁ : (flags &&& 0x2 ≠ 0) ↔ flags.getLsbD 1 = true := hbit 1 (by decide)
  have h₀ : (flags &&& 0x1 ≠ 0) ↔ flags.getLsbD 0 = true := hbit 0 (by decide)
  unfold Vcpu.protOf
  simp only [h₂, h₁, h₀]
  cases flags.getLsbD 2 <;> cases flags.getLsbD 1 <;> cases flags.getLsbD 0 <;> rfl

def ProgramHeader.pages (p : ProgramHeader) : Set ℕ :=
  span (pageDown pageBytes p.pVaddr.toNat)
    (pageUp pageBytes (p.pVaddr.toNat + p.pMemsz.toNat) - pageDown pageBytes p.pVaddr.toNat)

/-- The memory image the headers of an executable describe, with a stack. -/
structure StartsFrom (image : Image) (elf : ParsedElf) (s : AddressSpace Prot U8) : Prop where
  file : ∀ p ∈ elf.loads, ∀ i < p.pFilesz.toNat,
    image.bytes[p.pOffset.toNat + i]? = some (s.byte (p.pVaddr.toNat + i))
  bss : ∀ p ∈ elf.loads, ∀ i, p.pFilesz.toNat ≤ i → i < p.pMemsz.toNat →
    s.byte (p.pVaddr.toNat + i) = 0
  padding : ∀ p ∈ elf.loads, ∀ a ∈ ProgramHeader.pages p, a ∉ p.range → s.byte a = 0
  stack : ∀ a ∈ stackRange, s.byte a = 0
  perms : ∀ p ∈ elf.loads, ∀ a ∈ ProgramHeader.pages p, ∀ m ∈ s.mappings, a ∈ m.range →
    m.attr = ⟨p.pFlags.getLsbD 2, p.pFlags.getLsbD 1, p.pFlags.getLsbD 0⟩
  apart : elf.loads.Pairwise fun p q => Disjoint (ProgramHeader.pages p) (ProgramHeader.pages q)
  stackApart : ∀ p ∈ elf.loads, Disjoint (ProgramHeader.pages p) stackRange
  mapped : ∀ a, s.Mapped a ↔ (∃ p ∈ elf.loads, a ∈ ProgramHeader.pages p) ∨ a ∈ stackRange

theorem segmentPiece_file {image : Image} {p : ProgramHeader} (hin : p.InBounds image)
    (hsized : p.Sized) {i : ℕ} (hi : i < p.pFilesz.toNat) :
    image.bytes[p.pOffset.toNat + i]? =
      some ((segmentPiece (p.segment image)).byteAt (p.pVaddr.toNat + i)) := by
  have hloaded := segment_loadedFrom hin hsized
  obtain ⟨x, hx, hdata⟩ := hloaded.file i hi
  have hlen : i < (segmentPiece (p.segment image)).data.length := by
    have hle := hsized.filesz
    show i < ((p.segment image).data.take p.pFilesz.toNat).length
    rw [List.length_take, hloaded.length]
    show i < min p.pFilesz.toNat p.pMemsz.toNat
    omega
  rw [hx, Option.some.injEq]
  refine Eq.trans ?_ (AddressSpace.Piece.byteAt_of_lt _ hlen).symm
  show x = ((p.segment image).data.take p.pFilesz.toNat).getD i 0
  rw [List.getD_eq_getElem?_getD, List.getElem?_take_of_lt hi, hdata]
  rfl

theorem segmentPiece_zero (image : Image) {p : ProgramHeader} {a : ℕ}
    (ha : a ∉ span p.pVaddr.toNat p.pFilesz.toNat) :
    (segmentPiece (p.segment image)).byteAt a = 0 := by
  apply AddressSpace.Piece.byteAt_of_not_mem _
  have hlen : ((p.segment image).data.take p.pFilesz.toNat).length ≤ p.pFilesz.toNat :=
    List.length_take_le _ _
  show a ∉ span p.pVaddr.toNat ((p.segment image).data.take p.pFilesz.toNat).length
  rw [mem_span] at ha ⊢
  omega

theorem startsFrom_pieces {image : Image} {elf : ParsedElf} {out : LoadedElf}
    (hsegs : out.segments = elf.loads.map (·.segment image)) (hacc : Accepts image elf.loads)
    (hsized : ∀ p ∈ elf.loads, p.Sized) (hvalid : ∀ seg ∈ out.segments, seg.Valid)
    (hapart : out.segments.Pairwise fun s t => Disjoint s.pages t.pages)
    (hclear : ∀ seg ∈ out.segments, Disjoint seg.pages stackRange) :
    StartsFrom image elf (AddressSpace.empty.loadAll (startPieces out)) := by
  have hinside := startPieces_inside hvalid
  have hdisj := startPieces_disjoint hapart hclear
  have hseg : ∀ p ∈ elf.loads, p.segment image ∈ out.segments := fun p hp =>
    hsegs ▸ List.mem_map_of_mem hp
  -- on its own pages every header reads its own piece
  have hbyte : ∀ p ∈ elf.loads, ∀ a ∈ ProgramHeader.pages p,
      (AddressSpace.empty.loadAll (startPieces out)).byte a =
        (segmentPiece (p.segment image)).byteAt a := fun p hp a ha =>
    AddressSpace.byte_loadAll_of_mem _ _ hinside hdisj (segmentPiece_mem (hseg p hp)) ha
  have hpages : ∀ p : ProgramHeader, ∀ a ∈ p.range, a ∈ ProgramHeader.pages p := fun p a ha =>
    Segment.mem_pages (p.segment image) ha
  constructor
  case file =>
    intro p hp i hi
    have hle := (hsized p hp).filesz
    rw [hbyte p hp _ (hpages p _ (mem_span.mpr (by omega)))]
    exact segmentPiece_file (hacc.bounds p hp) (hsized p hp) hi
  case bss =>
    intro p hp i hlo hhi
    rw [hbyte p hp _ (hpages p _ (mem_span.mpr (by omega)))]
    apply segmentPiece_zero image
    rw [mem_span]
    omega
  case padding =>
    intro p hp a ha hout
    have hle := (hsized p hp).filesz
    rw [hbyte p hp a ha]
    apply segmentPiece_zero image
    rw [ProgramHeader.range, mem_span] at hout
    rw [mem_span]
    omega
  case stack =>
    intro a ha
    rw [← stackPiece_range] at ha
    rw [AddressSpace.byte_loadAll_of_mem _ _ hinside hdisj (stackPiece_mem out) ha]
    exact stackPiece_byteAt a
  case perms =>
    intro p hp a ha m hm ham
    rw [AddressSpace.mapping_eq_of_mem hdisj (segmentPiece_mem (hseg p hp)) ha hm ham]
    exact protOf_eq p.pFlags
  case apart =>
    rw [hsegs, List.pairwise_map] at hapart
    exact hapart
  case stackApart =>
    intro p hp
    exact hclear (p.segment image) (hseg p hp)
  case mapped =>
    intro a
    rw [mapped_startPieces, hsegs]
    simp only [List.mem_map, exists_exists_and_eq_and]
    exact Iff.rfl

/-- A guest prepared from an accepted image starts with that image. -/
theorem prepare_starts {U : Type} [LawfulUnicorn U] (b : Build)
    (parse : Image → Except String ParsedElf) (image : Image) (elf : ParsedElf) (out : LoadedElf)
    (hp : parse image = .ok elf) (hload : loadElf b parse image = .ok out)
    (dispatch : Dispatch (UnicornGuest U)) (uc : U)
    (huc : LawfulUnicorn.space uc = AddressSpace.empty) (v : Vcpu U)
    (hrun : Vcpu.prepare b out (Vcpu.new dispatch uc) = (.ok (), v)) :
    StartsFrom image elf (LawfulUnicorn.space v.uc) ∧
      Unicorn.regRead v.uc .RIP = .ok elf.entry ∧
      ∃ rsp, Unicorn.regRead v.uc .RSP = .ok rsp ∧ span rsp.toNat 0x20 ⊆ stackRange := by
  have hvalid := loadElf_valid hload
  obtain ⟨hspace, hapart, hclear, hrip, hrsp⟩ := prepare_ok hvalid dispatch huc hrun
  obtain ⟨elf', hp', ⟨-, -, hacc⟩, hsized, rfl⟩ := loadElf_eq_ok b hload
  rw [hp, Except.ok.injEq] at hp'
  subst hp'
  refine ⟨?_, hrip, _, hrsp, frame_subset⟩
  rw [hspace]
  exact startsFrom_pieces rfl hacc hsized hvalid hapart hclear

def twoPagesReady : Vcpu FlatEngine :=
  (Vcpu.prepare .debug twoPagesElf (Vcpu.new (stage1 .debug none) FlatEngine.new)).2

theorem twoPages_starts :
    StartsFrom twoPagesImage twoPages.parsed (LawfulUnicorn.space twoPagesReady.uc) ∧
      Unicorn.regRead twoPagesReady.uc .RIP = .ok 0x4000b0 ∧
      ∃ rsp, Unicorn.regRead twoPagesReady.uc .RSP = .ok rsp ∧
        span rsp.toNat 0x20 ⊆ stackRange :=
  prepare_starts .debug (fun _ => .ok twoPages.parsed) twoPagesImage twoPages.parsed twoPagesElf rfl
    twoPages_loads (stage1 .debug none) FlatEngine.new FlatEngine.space_new twoPagesReady
    (Prod.ext (by decide +kernel) rfl)

end WinVpwn.Cpu
