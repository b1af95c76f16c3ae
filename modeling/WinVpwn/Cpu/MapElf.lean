import WinVpwn.Cpu.PageRange
import WinVpwn.Elf.LoadElf

/-!
# `map_elf` on the engine

One segment is mapped exactly when its pages are free, and then adds its pages
and its file bytes to the address space. Over the segments of an image that
leaves one question: whether any two of them share a page.
-/

namespace WinVpwn.Cpu
open Rust Lib WinVpwn.Memory WinVpwn.Elf WinVpwn.Vkernel WinVpwn.Syscall

/-- The pages of a segment with its file bytes in place. -/
def segmentPiece (seg : Segment) : AddressSpace.Piece Prot U8 where
  base := seg.lo
  size := seg.hi - seg.lo
  attr := Vcpu.protOf seg.flags
  addr := seg.vaddr.toNat
  data := seg.data.take seg.filesz.toNat

theorem segmentPiece_inside {seg : Segment} (hv : seg.Valid) : (segmentPiece seg).Inside := by
  have hfile := hv.filesz
  have hlo := pageDown_le pageBytes seg.vaddr.toNat
  have hhi := le_pageUp (p := pageBytes) (by decide) (seg.vaddr.toNat + seg.memsz.toNat)
  have hlen : (seg.data.take seg.filesz.toNat).length = seg.filesz.toNat := by
    rw [List.length_take, hv.length]
    omega
  unfold AddressSpace.Piece.Inside segmentPiece
  simp only [hlen, Segment.lo, Segment.hi]
  omega

section Engine
variable {U : Type} [LawfulUnicorn U]

/-- The claim map holds regions the engine has mapped, and no others. -/
structure Tracked (b : Build) (v : Vcpu U) : Prop where
  ends : ∀ r ∈ v.map.regions, MemoryMap.Ends b r.base r.size
  nonempty : ∀ r ∈ v.map.regions, 0 < r.size.toNat
  mapped : ∀ r ∈ v.map.regions, ∃ m ∈ (LawfulUnicorn.space v.uc).mappings, m.range = r.range

theorem tracked_new (b : Build) (dispatch : Dispatch (UnicornGuest U)) (uc : U) :
    Tracked b (Vcpu.new dispatch uc) :=
  ⟨by simp [Vcpu.new, MemoryMap.new], by simp [Vcpu.new, MemoryMap.new],
    by simp [Vcpu.new, MemoryMap.new]⟩

theorem mapRange_claimed {b : Build} {v : Vcpu U} {base size : U64} {flags : U32} (prot : Prot)
    {map : MemoryMap} (hrun : MemoryMap.insert b base size flags v.map = (.ok (), map)) :
    ((LawfulUnicorn.space v.uc).Free pageBytes addressEnd base.toNat size.toNat ∧
      ∃ uc, Vcpu.mapRange b base size flags prot v = (.ok (), { v with map := map, uc := uc }) ∧
        LawfulUnicorn.space uc = (LawfulUnicorn.space v.uc).map base.toNat size.toNat prot) ∨
    (¬(LawfulUnicorn.space v.uc).Free pageBytes addressEnd base.toNat size.toNat ∧
      ∃ e uc, Vcpu.mapRange b base size flags prot v =
          (.err (.map base e), { v with map := map, uc := uc }) ∧
        LawfulUnicorn.space uc = LawfulUnicorn.space v.uc) := by
  have hclaim : Vcpu.claimRange b base size flags v = (.ok (), { v with map := map }) := by
    simp only [Vcpu.claimRange, Act.zoom, Act.mapErr, hrun, Outcome.mapErr_ok]
  unfold Vcpu.mapRange
  rw [Act.bind_of_ok hclaim]
  by_cases hfree : (LawfulUnicorn.space v.uc).Free pageBytes addressEnd base.toNat size.toNat
  · obtain ⟨uc, hmap⟩ := (LawfulUnicorn.memMap_ok_iff v.uc base size prot).mpr hfree
    refine Or.inl ⟨hfree, uc, ?_, LawfulUnicorn.space_memMap hmap⟩
    simp only [Vcpu.onEngine, Act.zoom, engineCall, hmap]
  · rcases hmap : Unicorn.memMap base size prot v.uc with ⟨res, uc⟩
    cases res with
    | ok _ => exact absurd ((LawfulUnicorn.memMap_ok_iff v.uc base size prot).mp ⟨uc, hmap⟩) hfree
    | error e =>
      refine Or.inr ⟨hfree, e, uc, ?_, LawfulUnicorn.space_memMap_error hmap⟩
      simp only [Vcpu.onEngine, Act.zoom, engineCall, hmap]

theorem mapRange_refused {b : Build} {v : Vcpu U} {base size : U64} {flags : U32} (prot : Prot)
    {e : MmapError} (hrun : MemoryMap.insert b base size flags v.map = (.err e, v.map)) :
    Vcpu.mapRange b base size flags prot v = (.err (.ofMmap e), v) := by
  apply Act.bind_of_err
  simp only [Vcpu.claimRange, Act.zoom, Act.mapErr, hrun, Outcome.mapErr_err]

theorem mapRange_fault {b : Build} {v : Vcpu U} {base size : U64} {flags : U32} (prot : Prot)
    {p : Fault} (hrun : MemoryMap.insert b base size flags v.map = (.fault p, v.map)) :
    Vcpu.mapRange b base size flags prot v = (.fault p, v) := by
  apply Act.bind_of_fault
  simp only [Vcpu.claimRange, Act.zoom, Act.mapErr, hrun]
  rfl

theorem mapRange_cases {b : Build} {v : Vcpu U} (ht : Tracked b v) {base size : U64} (flags : U32)
    (prot : Prot) (hnew : MemoryMap.Ends b base size) :
    ((LawfulUnicorn.space v.uc).Free pageBytes addressEnd base.toNat size.toNat ∧
      ∃ v', Vcpu.mapRange b base size flags prot v = (.ok (), v') ∧ Tracked b v' ∧
        LawfulUnicorn.space v'.uc = (LawfulUnicorn.space v.uc).map base.toNat size.toNat prot) ∨
    (¬(LawfulUnicorn.space v.uc).Free pageBytes addressEnd base.toNat size.toNat ∧
      ∃ e v', Vcpu.mapRange b base size flags prot v = (.err e, v')) := by
  rcases MemoryMap.insert_sound ht.ends flags hnew with
    ⟨⟨r, hr, hmeet⟩, hrun⟩ | ⟨map, hrun, hregions⟩
  · -- the claim map refuses: the region in the way is mapped
    refine Or.inr ⟨fun hfree => ?_, .ofMmap ⟨base⟩, v, mapRange_refused prot hrun⟩
    obtain ⟨m, hm, hrange⟩ := ht.mapped r hr
    have hdisj := hfree.clear m hm
    rw [hrange] at hdisj
    exact (not_disjoint_span_iff (ht.nonempty r hr) hfree.pos).mpr hmeet hdisj
  rcases mapRange_claimed prot hrun with ⟨hfree, uc, hmap, hspace⟩ | ⟨hbusy, e, uc, hmap, -⟩
  swap
  · exact Or.inr ⟨hbusy, _, _, hmap⟩
  refine Or.inl ⟨hfree, _, hmap, ⟨?_, ?_, ?_⟩, hspace⟩
  · intro r hr
    rcases (hregions r).mp hr with hr | ⟨-, rfl⟩
    · exact ht.ends r hr
    · exact hnew
  · intro r hr
    rcases (hregions r).mp hr with hr | ⟨hpos, rfl⟩
    · exact ht.nonempty r hr
    · exact hpos
  · intro r hr
    simp only [hspace, AddressSpace.mappings_map, Set.mem_insert_iff]
    rcases (hregions r).mp hr with hr | ⟨-, rfl⟩
    · obtain ⟨m, hm, hrange⟩ := ht.mapped r hr
      exact ⟨m, Or.inr hm, hrange⟩
    · exact ⟨_, Or.inl rfl, rfl⟩

/- What is left to do for a segment whose pages are mapped: its file bytes lie
inside them, so the store goes through. -/
theorem mapSegment_mapped {b : Build} {v v₁ : Vcpu U} {seg : Segment} (hv : seg.Valid)
    (hr : seg.Rounds b)
    (hrun : Vcpu.mapRange b seg.claim.base seg.claim.size seg.flags (Vcpu.protOf seg.flags) v =
      (.ok (), v₁))
    (hspace₁ : LawfulUnicorn.space v₁.uc =
      (LawfulUnicorn.space v.uc).map seg.lo (seg.hi - seg.lo) (Vcpu.protOf seg.flags)) :
    ∃ uc, Vcpu.mapSegment b seg v = (.ok (), { v₁ with
        uc := uc, regions := v₁.regions ++ [(seg.claim.base, seg.claim.size, seg.flags)] }) ∧
      LawfulUnicorn.space uc = (LawfulUnicorn.space v.uc).load (segmentPiece seg) := by
  have hrange := Segment.pageRange_claim (ε := VcpuError) hv hr
  have hbase := Segment.claim_base seg
  have hlo : seg.lo ≤ seg.vaddr.toNat := pageDown_le pageBytes _
  have haddr : seg.claim.base + (seg.vaddr - seg.claim.base) = seg.vaddr := by
    rw [BitVec.add_comm, BitVec.sub_add_cancel]
  have hoffset := toNat_sub_of_le seg.vaddr seg.claim.base (by omega)
  have hsub : (b.sub seg.vaddr seg.claim.base : Outcome VcpuError U64) =
      .ok (seg.vaddr - seg.claim.base) := Build.sub_eq b _ _ (by omega)
  have hadd : (b.add seg.claim.base (seg.vaddr - seg.claim.base) : Outcome VcpuError U64) =
      .ok seg.vaddr := by
    rw [Build.add_eq b _ _ (by have := seg.vaddr.isLt; omega), haddr]
  have hdata : (seg.fileBytes : Outcome VcpuError _) = .ok (seg.data.take seg.filesz.toNat) := by
    unfold Segment.fileBytes
    rw [slice_eq _ _ _ (Nat.zero_le _) (by rw [hv.length]; exact hv.filesz)]
    rfl
  have hcovers : (LawfulUnicorn.space v₁.uc).Covers seg.vaddr.toNat
      (seg.data.take seg.filesz.toNat).length := by
    have hin := segmentPiece_inside hv
    rw [hspace₁]
    exact AddressSpace.covers_map _ _ hin.1 hin.2
  obtain ⟨uc, hwrite⟩ := (LawfulUnicorn.memWrite_ok_iff v₁.uc _ _).mpr hcovers
  refine ⟨uc, ?_, ?_⟩
  · unfold Vcpu.mapSegment
    rw [Act.bind_of_ok (a := (seg.claim.base, seg.claim.size)) (t := v)
      (by rw [Act.lift_apply, hrange])]
    apply (Act.bind_of_ok hrun).trans
    simp only [Act.bind_apply, Act.lift_apply, hsub, hdata, hadd, Vcpu.onEngine, Act.zoom,
      engineCall, hwrite, Act.modify_apply]
  · rw [LawfulUnicorn.space_memWrite hwrite, hspace₁]
    rfl

theorem mapSegment_refused {b : Build} {v v₁ : Vcpu U} {seg : Segment} (hv : seg.Valid)
    (hr : seg.Rounds b) {e : VcpuError}
    (hrun : Vcpu.mapRange b seg.claim.base seg.claim.size seg.flags (Vcpu.protOf seg.flags) v =
      (.err e, v₁)) : Vcpu.mapSegment b seg v = (.err e, v₁) := by
  unfold Vcpu.mapSegment
  rw [Act.bind_of_ok (a := (seg.claim.base, seg.claim.size)) (t := v)
    (by rw [Act.lift_apply, Segment.pageRange_claim hv hr])]
  exact Act.bind_of_err hrun

theorem mapSegment_fault {b : Build} {v v₁ : Vcpu U} {seg : Segment} (hv : seg.Valid)
    (hr : seg.Rounds b) {p : Fault}
    (hrun : Vcpu.mapRange b seg.claim.base seg.claim.size seg.flags (Vcpu.protOf seg.flags) v =
      (.fault p, v₁)) : Vcpu.mapSegment b seg v = (.fault p, v₁) := by
  unfold Vcpu.mapSegment
  rw [Act.bind_of_ok (a := (seg.claim.base, seg.claim.size)) (t := v)
    (by rw [Act.lift_apply, Segment.pageRange_claim hv hr])]
  exact Act.bind_of_fault hrun

theorem mapSegment_unrounded {b : Build} {v : Vcpu U} {seg : Segment} (hv : seg.Valid)
    (hr : ¬seg.Rounds b) : Vcpu.mapSegment b seg v = (.fault .overflow, v) := by
  unfold Vcpu.mapSegment
  exact Act.bind_of_fault (by rw [Act.lift_apply, Segment.pageRange_fault hv hr])

theorem mapSegment_cases {b : Build} {v : Vcpu U} (ht : Tracked b v) {seg : Segment}
    (hv : seg.Valid) (hr : seg.Rounds b) :
    ((LawfulUnicorn.space v.uc).Free pageBytes addressEnd seg.lo (seg.hi - seg.lo) ∧
      ∃ v', Vcpu.mapSegment b seg v = (.ok (), v') ∧ Tracked b v' ∧
        LawfulUnicorn.space v'.uc = (LawfulUnicorn.space v.uc).load (segmentPiece seg)) ∨
    (¬(LawfulUnicorn.space v.uc).Free pageBytes addressEnd seg.lo (seg.hi - seg.lo) ∧
      ∃ e v', Vcpu.mapSegment b seg v = (.err e, v')) := by
  have hcases := mapRange_cases ht seg.flags (Vcpu.protOf seg.flags) (Segment.claim_ends hv hr)
  rw [Segment.claim_base, Segment.claim_size hv] at hcases
  rcases hcases with ⟨hfree, v₁, hrun, ht₁, hspace₁⟩ | ⟨hbusy, e, v₁, hrun⟩
  swap
  · exact Or.inr ⟨hbusy, e, v₁, mapSegment_refused hv hr hrun⟩
  obtain ⟨uc, hmap, hspace⟩ := mapSegment_mapped hv hr hrun hspace₁
  refine Or.inl ⟨hfree, _, hmap, ⟨ht₁.ends, ht₁.nonempty, fun r hr => ?_⟩, hspace⟩
  -- the store changes no mapping
  have hmappings : (LawfulUnicorn.space uc).mappings = (LawfulUnicorn.space v₁.uc).mappings := by
    rw [hspace, hspace₁]
    rfl
  show ∃ m ∈ (LawfulUnicorn.space uc).mappings, m.range = r.range
  rw [hmappings]
  exact ht₁.mapped r hr

/-! ### The segments of an image -/

/-- Segments that can be mapped side by side: each takes at least one page, and
no page is taken twice. -/
structure Placed (segs : List Segment) : Prop where
  nonempty : ∀ seg ∈ segs, seg.lo < seg.hi
  disjoint : segs.Pairwise fun s t => Disjoint s.pages t.pages

theorem placed_nil : Placed [] := ⟨by simp, List.Pairwise.nil⟩

theorem placed_snoc (segs : List Segment) (seg : Segment) :
    Placed (segs ++ [seg]) ↔
      Placed segs ∧ seg.lo < seg.hi ∧ ∀ s ∈ segs, Disjoint s.pages seg.pages := by
  constructor
  · intro h
    obtain ⟨hpos, hdisj⟩ := h
    rw [List.pairwise_append] at hdisj
    exact ⟨⟨fun s hs => hpos s (List.mem_append_left _ hs), hdisj.1⟩,
      hpos seg (List.mem_append_right _ (List.mem_singleton_self seg)),
      fun s hs => hdisj.2.2 s hs seg (List.mem_singleton_self seg)⟩
  · intro h
    obtain ⟨⟨hpos, hdisj⟩, hseg, hclear⟩ := h
    refine ⟨?_, List.pairwise_append.mpr ⟨hdisj, List.pairwise_singleton _ _, ?_⟩⟩
    · intro s hs
      rcases List.mem_append.mp hs with hs | hs
      · exact hpos s hs
      · exact List.mem_singleton.mp hs ▸ hseg
    · intro s hs t ht
      exact List.mem_singleton.mp ht ▸ hclear s hs

theorem placed_of_append {segs : List Segment} (rest : List Segment) (h : Placed (segs ++ rest)) : Placed segs :=
  ⟨fun s hs => h.nonempty s (List.mem_append_left _ hs), (List.pairwise_append.mp h.disjoint).1⟩

/-- The state after the segments `done` of a fresh `Vcpu`. -/
structure MapInv (b : Build) (done : List Segment) (v : Vcpu U) : Prop where
  tracked : Tracked b v
  space : LawfulUnicorn.space v.uc = AddressSpace.empty.loadAll (done.map segmentPiece)
  placed : Placed done

theorem mapInv_new (b : Build) (dispatch : Dispatch (UnicornGuest U)) {uc : U}
    (huc : LawfulUnicorn.space uc = AddressSpace.empty) : MapInv b [] (Vcpu.new dispatch uc) :=
  ⟨tracked_new b dispatch uc, huc, placed_nil⟩

theorem free_iff {s : AddressSpace Prot U8} {done : List Segment} {seg : Segment} (hv : seg.Valid)
    (hs : s = AddressSpace.empty.loadAll (done.map segmentPiece)) :
    s.Free pageBytes addressEnd seg.lo (seg.hi - seg.lo) ↔
      seg.lo < seg.hi ∧ ∀ t ∈ done, Disjoint t.pages seg.pages := by
  have hlohi := Segment.lo_le_hi seg
  have hhi := Segment.hi_le hv
  subst hs
  constructor
  · intro hfree
    refine ⟨Nat.lt_of_sub_pos hfree.pos, fun t ht => ?_⟩
    apply hfree.clear (segmentPiece t).mapping
    exact (AddressSpace.mem_mappings_loadAll ..).mpr
      (Or.inr ⟨_, List.mem_map_of_mem ht, rfl⟩)
  · intro h
    obtain ⟨hpos, hclear⟩ := h
    refine ⟨dvd_pageDown _ _, Nat.dvd_sub (dvd_pageUp _ _) (dvd_pageDown _ _),
      Nat.sub_pos_of_lt hpos, by omega, fun m hm => ?_⟩
    rcases (AddressSpace.mem_mappings_loadAll ..).mp hm with hm | ⟨p, hp, rfl⟩
    · exact absurd hm (Set.notMem_empty m)
    · obtain ⟨t, ht, rfl⟩ := List.mem_map.mp hp
      exact hclear t ht

theorem mapInv_step {b : Build} {done : List Segment} {v : Vcpu U} (hinv : MapInv b done v)
    {seg : Segment} (hv : seg.Valid) (hr : seg.Rounds b) :
    (∃ v', Vcpu.mapSegment b seg v = (.ok (), v') ∧ MapInv b (done ++ [seg]) v') ∨
    (¬Placed (done ++ [seg]) ∧ ∃ e v', Vcpu.mapSegment b seg v = (.err e, v')) := by
  rcases mapSegment_cases hinv.tracked hv hr with ⟨hfree, v', hrun, ht, hspace⟩ | ⟨hbusy, hrun⟩
  · refine Or.inl ⟨v', hrun, ht, ?_, ?_⟩
    · rw [hspace, hinv.space, List.map_append, AddressSpace.loadAll_append]
      rfl
    · rw [placed_snoc]
      exact ⟨hinv.placed, (free_iff hv hinv.space).mp hfree⟩
  · refine Or.inr ⟨fun hplaced => hbusy ((free_iff hv hinv.space).mpr ?_), hrun⟩
    exact ((placed_snoc ..).mp hplaced).2

theorem mapLoop_cases {b : Build} (segs : List Segment) {done : List Segment} {v : Vcpu U}
    (hinv : MapInv b done v) (hv : ∀ seg ∈ segs, seg.Valid) (hr : ∀ seg ∈ segs, seg.Rounds b) :
    (∃ v', segs.forM (Vcpu.mapSegment b) v = (.ok (), v') ∧ MapInv b (done ++ segs) v') ∨
    (¬Placed (done ++ segs) ∧ ∃ e v', segs.forM (Vcpu.mapSegment b) v = (.err e, v')) := by
  induction segs generalizing done v with
  | nil => exact Or.inl ⟨v, rfl, by simpa using hinv⟩
  | cons seg segs ih =>
    rw [Act.forM_cons_apply]
    rcases mapInv_step hinv (hv seg (List.mem_cons_self ..)) (hr seg (List.mem_cons_self ..)) with
      ⟨v', hrun, hinv'⟩ | ⟨hbad, e, v', hrun⟩
    · rw [Act.bind_of_ok hrun]
      simpa using ih hinv' (fun s hs => hv s (List.mem_cons_of_mem _ hs))
        (fun s hs => hr s (List.mem_cons_of_mem _ hs))
    · refine Or.inr ⟨fun h => hbad (placed_of_append segs ?_), e, v',
        Act.bind_of_err hrun⟩
      simpa using h

end Engine

theorem loadElf_valid {b : Build} {parse : Image → Except String ParsedElf} {image : Image}
    {elf : LoadedElf} (h : loadElf b parse image = .ok elf) : ∀ seg ∈ elf.segments, seg.Valid := by
  obtain ⟨parsed, -, ⟨-, -, hacc⟩, hsized, rfl⟩ := loadElf_eq_ok b h
  intro seg hseg
  obtain ⟨p, hp, rfl⟩ := List.mem_map.mp hseg
  have hloaded := segment_loadedFrom (hacc.bounds p hp) (hsized p hp)
  exact ⟨hloaded.filesz_le, (hsized p hp).memsz, hloaded.bounded, hloaded.length⟩

/-- An accepted image whose segments all take a page is mapped exactly when no
page would be taken twice; otherwise it is refused. -/
theorem mapElf_ok_iff {U : Type} [LawfulUnicorn U] (b : Build)
    (parse : Image → Except String ParsedElf) (image : Image) (elf : LoadedElf)
    (hload : loadElf b parse image = .ok elf) (dispatch : Dispatch (UnicornGuest U)) (uc : U)
    (huc : LawfulUnicorn.space uc = AddressSpace.empty)
    (hpages : ∀ seg ∈ elf.segments, seg.lo < seg.hi)
    (hround : ∀ seg ∈ elf.segments, seg.Rounds b) :
    ((Vcpu.mapElf b elf (Vcpu.new dispatch uc)).1 = .ok () ↔
      elf.segments.Pairwise fun s t => Disjoint s.pages t.pages) ∧
    (Vcpu.mapElf b elf (Vcpu.new dispatch uc)).1.Returns := by
  have hplaced : Placed elf.segments ↔
      elf.segments.Pairwise fun s t => Disjoint s.pages t.pages :=
    ⟨fun h => h.disjoint, fun h => ⟨hpages, h⟩⟩
  unfold Vcpu.mapElf
  rw [← hplaced]
  rcases mapLoop_cases elf.segments (mapInv_new b dispatch huc) (loadElf_valid hload) hround with
    ⟨v', hrun, hinv⟩ | ⟨hbad, e, v', hrun⟩
  · rw [List.nil_append] at hinv
    simp [hrun, hinv.placed]
  · rw [List.nil_append] at hbad
    simp [hrun, hbad]

def twoPages : Exec64 where
  littleEndian := true
  entry := 0x4000b0
  programHeaders := [⟨PT_LOAD, 5, 0xb0, 0x4000b0, 2, 2, 0x1000⟩,
    ⟨PT_LOAD, 6, 0xb2, 0x4010b2, 1, 16, 0x1000⟩]
  body := [0xeb, 0xfe, 0x2a]

def twoPagesImage : Image := ⟨twoPages.bytes, by decide +kernel⟩

def twoPagesElf : LoadedElf where
  entry := 0x4000b0
  segments := [⟨0x4000b0, 2, 2, [0xeb, 0xfe], 5, 0x1000⟩,
    ⟨0x4010b2, 16, 1, 0x2a :: List.replicate 15 0, 6, 0x1000⟩]
  isPie := false

theorem twoPages_loads :
    loadElf .debug (fun _ => .ok twoPages.parsed) twoPagesImage = .ok twoPagesElf := by
  decide +kernel

theorem twoPages_mapped :
    ((Vcpu.mapElf .debug twoPagesElf (Vcpu.new (stage1 .debug none) FlatEngine.new)).1 = .ok () ↔
      twoPagesElf.segments.Pairwise fun s t => Disjoint s.pages t.pages) ∧
    (Vcpu.mapElf .debug twoPagesElf (Vcpu.new (stage1 .debug none) FlatEngine.new)).1.Returns :=
  mapElf_ok_iff .debug (fun _ => .ok twoPages.parsed) twoPagesImage twoPagesElf twoPages_loads _
    FlatEngine.new FlatEngine.space_new (by decide +kernel) (by
      have hall : ∀ seg ∈ twoPagesElf.segments,
          seg.vaddr.toNat + seg.memsz.toNat + pageBytes < addressEnd := by decide +kernel
      exact fun seg hseg _ => hall seg hseg)

def samePage : Exec64 where
  littleEndian := true
  entry := 0x4000b0
  programHeaders := [⟨PT_LOAD, 5, 0xb0, 0x4000b0, 2, 2, 0x1000⟩,
    ⟨PT_LOAD, 6, 0xb2, 0x4000b2, 1, 16, 0x1000⟩]
  body := [0xeb, 0xfe, 0x2a]

def samePageImage : Image := ⟨samePage.bytes, by decide +kernel⟩

theorem samePage_refused : ∃ elf,
    loadElf .release (fun _ => .ok samePage.parsed) samePageImage = .ok elf ∧
    (Vcpu.mapElf .release elf (Vcpu.new (stage1 .release none) FlatEngine.new)).1 =
      .err (.map 0x400000 "guest address space overlap") :=
  ⟨⟨0x4000b0, [⟨0x4000b0, 2, 2, [0xeb, 0xfe], 5, 0x1000⟩,
    ⟨0x4000b2, 16, 1, 0x2a :: List.replicate 15 0, 6, 0x1000⟩], false⟩,
    by decide +kernel, by decide +kernel⟩

end WinVpwn.Cpu
