import WinVpwn.Cpu.MapElf

/-!
# What a failed `map_elf` leaves behind

The segments are mapped one after the other and nothing is taken back: an image
that is refused keeps the segments before the refused one, on top of whatever was
mapped before.
-/

namespace WinVpwn.Cpu
open Rust Lib WinVpwn.Memory WinVpwn.Elf WinVpwn.Vkernel WinVpwn.Syscall

section Engine
variable {U : Type} [LawfulUnicorn U]

/-- The entry of the regions list for a segment. -/
def listedRegion (seg : Segment) : U64 × U64 × U32 := (seg.claim.base, seg.claim.size, seg.flags)

theorem mapSegment_effect (b : Build) (v : Vcpu U) {seg : Segment} (hv : seg.Valid) :
    (∃ p, Vcpu.mapSegment b seg v = (.fault p, v)) ∨
    (∃ e v', Vcpu.mapSegment b seg v = (.err e, v') ∧
      LawfulUnicorn.space v'.uc = LawfulUnicorn.space v.uc ∧ v'.regions = v.regions ∧
      (∀ r ∈ v.map.regions, r ∈ v'.map.regions) ∧
      ∀ r ∈ v'.map.regions, r ∈ v.map.regions ∨ r = seg.claim) ∨
    ∃ v', Vcpu.mapSegment b seg v = (.ok (), v') ∧
      (LawfulUnicorn.space v.uc).Free pageBytes addressEnd seg.lo (seg.hi - seg.lo) ∧
      LawfulUnicorn.space v'.uc = (LawfulUnicorn.space v.uc).load (segmentPiece seg) ∧
      v'.regions = v.regions ++ [listedRegion seg] ∧
      ∀ r, r ∈ v'.map.regions ↔ r ∈ v.map.regions ∨ r = seg.claim := by
  by_cases hr : seg.Rounds b
  swap
  · exact Or.inl ⟨_, mapSegment_unrounded hv hr⟩
  rcases MemoryMap.insert_outcomes b v.map seg.claim.base seg.claim.size seg.flags with
    ⟨p, hrun⟩ | ⟨e, hrun⟩ | ⟨map, hrun, hregions⟩
  · exact Or.inl ⟨p, mapSegment_fault hv hr (mapRange_fault _ hrun)⟩
  · exact Or.inr (Or.inl ⟨_, v, mapSegment_refused hv hr (mapRange_refused _ hrun), rfl, rfl,
      fun r hr => hr, fun r hr => Or.inl hr⟩)
  have hclaim : seg.claim = ⟨seg.claim.base, seg.claim.size, seg.flags⟩ := rfl
  have hcases := mapRange_claimed (Vcpu.protOf seg.flags) hrun
  rw [Segment.claim_base, Segment.claim_size hv] at hcases
  rcases hcases with ⟨hfree, uc, hmap, hspace⟩ | ⟨-, e, uc, hmap, hspace⟩
  · obtain ⟨uc', hdone, hspace'⟩ := mapSegment_mapped hv hr hmap hspace
    refine Or.inr (Or.inr ⟨_, hdone, hfree, hspace', rfl, fun r => ?_⟩)
    have hpos : 0 < seg.claim.size.toNat := by
      rw [Segment.claim_size hv]
      exact hfree.pos
    show r ∈ map.regions ↔ _
    rw [hregions, hclaim]
    simp only [hpos, true_and]
  · refine Or.inr (Or.inl ⟨_, _, mapSegment_refused hv hr hmap, hspace, rfl, ?_, ?_⟩)
    · intro r hr
      exact (hregions r).mpr (Or.inl hr)
    · intro r hr
      exact ((hregions r).mp hr).imp_right And.right

/-- What `v'` has on top of `v` when the segments `done` were mapped and `refused` was
not: engine and regions list hold exactly the segments done, the bytes mapped before
are untouched, and no claim was given up. -/
structure MappedUpTo (v : Vcpu U) (done : List Segment) (refused : Segment) (v' : Vcpu U) :
    Prop where
  space : LawfulUnicorn.space v'.uc = (LawfulUnicorn.space v.uc).loadAll (done.map segmentPiece)
  regions : v'.regions = v.regions ++ done.map listedRegion
  kept : ∀ a, (LawfulUnicorn.space v.uc).Mapped a → (LawfulUnicorn.space v'.uc).Mapped a ∧
    (LawfulUnicorn.space v'.uc).byte a = (LawfulUnicorn.space v.uc).byte a
  claimed : ∀ r, (r ∈ v.map.regions ∨ ∃ seg ∈ done, r = seg.claim) → r ∈ v'.map.regions
  noOther : ∀ r ∈ v'.map.regions, r ∈ v.map.regions ∨ ∃ seg ∈ done ++ [refused], r = seg.claim

theorem kept_load {s : AddressSpace Prot U8} {seg : Segment} (hv : seg.Valid)
    (hfree : s.Free pageBytes addressEnd seg.lo (seg.hi - seg.lo)) {a : ℕ} (ha : s.Mapped a) :
    (s.load (segmentPiece seg)).Mapped a ∧ (s.load (segmentPiece seg)).byte a = s.byte a := by
  obtain ⟨m, hm, ham⟩ := ha
  have hout : a ∉ (segmentPiece seg).range := Set.disjoint_left.mp (hfree.clear m hm) ham
  exact ⟨⟨m, Or.inr hm, ham⟩, s.byte_load_of_not_mem (segmentPiece_inside hv) hout⟩

theorem mappedUpTo_refused {v v' : Vcpu U} {seg : Segment}
    (hspace : LawfulUnicorn.space v'.uc = LawfulUnicorn.space v.uc)
    (hregions : v'.regions = v.regions) (hkept : ∀ r ∈ v.map.regions, r ∈ v'.map.regions)
    (hother : ∀ r ∈ v'.map.regions, r ∈ v.map.regions ∨ r = seg.claim) :
    MappedUpTo v [] seg v' := by
  constructor
  case space => exact hspace
  case regions => simpa using hregions
  case kept =>
    intro a ha
    rw [hspace]
    exact ⟨ha, rfl⟩
  case claimed =>
    intro r hr
    rcases hr with hr | ⟨s, hs, -⟩
    · exact hkept r hr
    · cases hs
  case noOther =>
    intro r hr
    simpa using hother r hr

theorem MappedUpTo.cons {v v₁ v' : Vcpu U} {seg refused : Segment} {done : List Segment}
    (hv : seg.Valid)
    (hfree : (LawfulUnicorn.space v.uc).Free pageBytes addressEnd seg.lo (seg.hi - seg.lo))
    (hspace : LawfulUnicorn.space v₁.uc = (LawfulUnicorn.space v.uc).load (segmentPiece seg))
    (hregions : v₁.regions = v.regions ++ [listedRegion seg])
    (hclaims : ∀ r, r ∈ v₁.map.regions ↔ r ∈ v.map.regions ∨ r = seg.claim)
    (h : MappedUpTo v₁ done refused v') : MappedUpTo v (seg :: done) refused v' := by
  constructor
  case space =>
    rw [h.space, hspace]
    rfl
  case regions =>
    rw [h.regions, hregions, List.append_assoc]
    rfl
  case kept =>
    intro a ha
    obtain ⟨hmapped, hbyte⟩ := kept_load hv hfree ha
    rw [← hspace] at hmapped hbyte
    obtain ⟨hmapped', hbyte'⟩ := h.kept a hmapped
    exact ⟨hmapped', hbyte'.trans hbyte⟩
  case claimed =>
    intro r hr
    apply h.claimed r
    rcases hr with hr | ⟨s, hs, rfl⟩
    · exact Or.inl ((hclaims r).mpr (Or.inl hr))
    · rcases List.mem_cons.mp hs with rfl | hs
      · exact Or.inl ((hclaims _).mpr (Or.inr rfl))
      · exact Or.inr ⟨s, hs, rfl⟩
  case noOther =>
    intro r hr
    rcases h.noOther r hr with hr | ⟨s, hs, rfl⟩
    · rcases (hclaims r).mp hr with hr | rfl
      · exact Or.inl hr
      · exact Or.inr ⟨seg, List.mem_cons_self .., rfl⟩
    · exact Or.inr ⟨s, List.mem_cons_of_mem _ hs, rfl⟩

theorem mapLoop_failure {b : Build} (segs : List Segment) {v v' : Vcpu U} {e : VcpuError}
    (hv : ∀ seg ∈ segs, seg.Valid) (hrun : segs.forM (Vcpu.mapSegment b) v = (.err e, v')) :
    ∃ done refused rest, segs = done ++ refused :: rest ∧ MappedUpTo v done refused v' := by
  induction segs generalizing v with
  | nil => cases hrun
  | cons seg segs ih =>
    rw [Act.forM_cons_apply] at hrun
    have hseg := hv seg (List.mem_cons_self ..)
    rcases mapSegment_effect b v hseg with
      ⟨p, h₁⟩ | ⟨e₁, v₁, h₁, hspace, hregions, hkept, hother⟩ |
        ⟨v₁, h₁, hfree, hspace, hregions, hclaims⟩
    · rw [Act.bind_of_fault h₁] at hrun
      cases hrun
    · rw [Act.bind_of_err h₁] at hrun
      cases hrun
      exact ⟨[], seg, segs, rfl, mappedUpTo_refused hspace hregions hkept hother⟩
    · rw [Act.bind_of_ok h₁] at hrun
      obtain ⟨done, refused, rest, rfl, hinv⟩ :=
        ih (fun s hs => hv s (List.mem_cons_of_mem _ hs)) hrun
      exact ⟨seg :: done, refused, rest, rfl, hinv.cons hseg hfree hspace hregions hclaims⟩

/-- A `map_elf` that returns an error has mapped the segments before the refused one
and changed nothing else in the engine and the regions list. -/
theorem mapElf_failure (b : Build) (parse : Image → Except String ParsedElf) (image : Image)
    (elf : LoadedElf) (hload : loadElf b parse image = .ok elf) (v v' : Vcpu U) (e : VcpuError)
    (hrun : Vcpu.mapElf b elf v = (.err e, v')) :
    ∃ done refused rest, elf.segments = done ++ refused :: rest ∧ MappedUpTo v done refused v' :=
  mapLoop_failure elf.segments (loadElf_valid hload) hrun

end Engine

def samePageElf : LoadedElf where
  entry := 0x4000b0
  segments := [⟨0x4000b0, 2, 2, [0xeb, 0xfe], 5, 0x1000⟩,
    ⟨0x4000b2, 16, 1, 0x2a :: List.replicate 15 0, 6, 0x1000⟩]
  isPie := false

def freshVcpu : Vcpu FlatEngine := Vcpu.new (stage1 .release none) FlatEngine.new

theorem samePage_loads :
    loadElf .release (fun _ => .ok samePage.parsed) samePageImage = .ok samePageElf := by
  decide +kernel

theorem samePage_fails :
    (Vcpu.mapElf .release samePageElf freshVcpu).1 =
      .err (.map 0x400000 "guest address space overlap") := by
  decide +kernel

theorem samePage_partly_mapped : ∃ done refused rest,
    samePageElf.segments = done ++ refused :: rest ∧
      MappedUpTo freshVcpu done refused (Vcpu.mapElf .release samePageElf freshVcpu).2 :=
  mapElf_failure .release (fun _ => .ok samePage.parsed) samePageImage samePageElf samePage_loads
    freshVcpu _ _ (Prod.ext samePage_fails rfl)

theorem samePage_leaves_trace :
    loadElf .release (fun _ => .ok samePage.parsed) samePageImage = .ok samePageElf ∧
    (Vcpu.mapElf .release samePageElf freshVcpu).1 =
      .err (.map 0x400000 "guest address space overlap") ∧
    freshVcpu.regions = [] ∧
    (Vcpu.mapElf .release samePageElf freshVcpu).2.regions = [(0x400000, 0x1000, 5)] ∧
    (Vcpu.mapElf .release samePageElf freshVcpu).2.map.regions = [⟨0x400000, 0x1000, 5⟩] ∧
    ((Vcpu.mapElf .release samePageElf freshVcpu).2.uc.mappings.map fun m => (m.base, m.size)) =
      [(0x400000, 0x1000)] := by
  decide +kernel

end WinVpwn.Cpu
