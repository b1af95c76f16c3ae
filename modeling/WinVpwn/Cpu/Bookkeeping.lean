import WinVpwn.Cpu.MapElf
import WinVpwn.Memory.Claims

/-!
# The three records of a `Vcpu`

A mapping is claimed first, then made in the engine, then listed. A range that the
engine turns down after it was claimed stays claimed, and is then refused to
whoever asks for it next.
-/

namespace WinVpwn.Cpu
open Rust Lib WinVpwn.Memory WinVpwn.Elf WinVpwn.Vkernel WinVpwn.Syscall

/-- A call that maps memory, with what its callers promise of the arguments. -/
inductive MapCall where
  | mapElf (image : LoadedElf)
      (accepted : ∃ b parse bytes, loadElf b parse bytes = .ok image)
  | mapMemory (base size : U64) (prot : Prot) (bounded : base.toNat + size.toNat < addressEnd)
  | mapStack (base size : U64) (bounded : base.toNat + size.toNat < addressEnd)

namespace MapCall

def run {U : Type} [Unicorn U] (b : Build) : MapCall → Act (Vcpu U) VcpuError Unit
  | .mapElf image _ => Vcpu.mapElf b image
  | .mapMemory base size prot _ => Vcpu.mapMemory b base size prot
  | .mapStack base size _ => Vcpu.mapStack b base size

instance (b : Build) (seg : Segment) : Decidable (seg.Rounds b) :=
  inferInstanceAs (Decidable (b = .debug → _))

/-- The ranges the call claims, in order, up to the first whose end a debug build
cannot round. -/
def ranges (b : Build) : MapCall → List Region
  | .mapElf image _ => (image.segments.takeWhile fun seg => seg.Rounds b).map Segment.claim
  | .mapMemory base size _ _ => [⟨base, size, 0⟩]
  | .mapStack base size _ => [⟨base, size, 0⟩]

end MapCall

section Claims
variable {U : Type}

def claimedRanges (v : Vcpu U) : Set (ℕ × ℕ) :=
  {p | ∃ r ∈ v.map.regions, p = (r.base.toNat, r.size.toNat)}

def listedRanges (v : Vcpu U) : Set (ℕ × ℕ) :=
  {p | ∃ t ∈ v.regions, p = (t.1.toNat, t.2.1.toNat)}

/-- The claims are regions a build can compare. -/
structure Sound (b : Build) (v : Vcpu U) : Prop where
  ends : ∀ r ∈ v.map.regions, MemoryMap.Ends b r.base r.size
  nonempty : ∀ r ∈ v.map.regions, 0 < r.size.toNat

/-! ### The claims and the list -/

/-- The range takes whole pages and meets none of the claims. -/
def Clear (claims : List Region) (r : Region) : Prop :=
  pageBytes ∣ r.base.toNat ∧ pageBytes ∣ r.size.toNat ∧ ∀ c ∈ claims, Disjoint c.range r.range

/-- The range ends the call and leaves the sets alone: it is empty, a claim is seen to
meet it, or it is claimed as it stands. -/
def Stops (claims : List Region) (r : Region) : Prop :=
  r.size = 0 ∨ (∃ c ∈ claims, MemoryMap.Seen c r) ∨ ∃ c ∈ claims, c.base = r.base ∧ c.size = r.size

/-- None of the ranges, taken in order, is claimed and then turned down. -/
def Settled : List Region → List Region → Prop
  | _, [] => True
  | claims, r :: rs => Stops claims r ∨ (Clear claims r ∧ Settled (r :: claims) rs)

instance (claims : List Region) (r : Region) : Decidable (Stops claims r) :=
  inferInstanceAs (Decidable (_ ∨ _ ∨ _))

theorem stops_iff {claims : List Region} {r : Region} (hsize : r.size ≠ 0)
    (hunseen : ¬∃ c ∈ claims, MemoryMap.Seen c r) :
    Stops claims r ↔ ∃ c ∈ claims, c.base = r.base ∧ c.size = r.size := by
  unfold Stops
  rw [or_iff_right hsize, or_iff_right hunseen]

instance (c r : Region) : Decidable (Disjoint c.range r.range) :=
  decidable_of_iff _ disjoint_span_iff.symm

instance (claims : List Region) (r : Region) : Decidable (Clear claims r) :=
  inferInstanceAs (Decidable (_ ∧ _ ∧ _))

instance decidableSettled : ∀ claims rs, Decidable (Settled claims rs)
  | _, [] => .isTrue trivial
  | claims, r :: rs =>
    have := decidableSettled (r :: claims) rs
    inferInstanceAs (Decidable (_ ∨ _ ∧ _))

theorem settled_congr {claims claims' : List Region} (h : ∀ c, c ∈ claims ↔ c ∈ claims')
    (rs : List Region) : Settled claims rs ↔ Settled claims' rs := by
  induction rs generalizing claims claims' with
  | nil => exact Iff.rfl
  | cons r rs ih =>
    have hnext : ∀ c, c ∈ r :: claims ↔ c ∈ r :: claims' := by simp [h]
    unfold Settled Stops Clear
    simp only [h, ih hnext]

theorem claimedRanges_push {v v' : Vcpu U} {r : Region}
    (h : v'.map = ⟨MemoryMap.sortByBase (v.map.regions ++ [r])⟩) :
    claimedRanges v' = insert (r.base.toNat, r.size.toNat) (claimedRanges v) := by
  ext p
  unfold claimedRanges
  rw [h]
  simp only [MemoryMap.mem_sortByBase, List.mem_append, List.mem_singleton, Set.mem_ofPred_eq,
    Set.mem_insert_iff]
  constructor
  · intro h
    obtain ⟨c, hc | rfl, rfl⟩ := h
    · exact Or.inr ⟨c, hc, rfl⟩
    · exact Or.inl rfl
  · intro h
    rcases h with rfl | ⟨c, hc, rfl⟩
    · exact ⟨r, Or.inr rfl, rfl⟩
    · exact ⟨c, Or.inl hc, rfl⟩

theorem listedRanges_push {v v' : Vcpu U} {r : Region}
    (h : v'.regions = v.regions ++ [(r.base, r.size, r.prot)]) :
    listedRanges v' = insert (r.base.toNat, r.size.toNat) (listedRanges v) := by
  ext p
  unfold listedRanges
  rw [h]
  simp only [List.mem_append, List.mem_singleton, Set.mem_ofPred_eq, Set.mem_insert_iff]
  constructor
  · intro h
    obtain ⟨t, ht | rfl, rfl⟩ := h
    · exact Or.inr ⟨t, ht, rfl⟩
    · exact Or.inl rfl
  · intro h
    rcases h with rfl | ⟨t, ht, rfl⟩
    · exact ⟨_, Or.inr rfl, rfl⟩
    · exact ⟨t, Or.inl ht, rfl⟩

theorem not_clear_of_same {b : Build} {v : Vcpu U} (hs : Sound b v) {c r : Region}
    (hc : c ∈ v.map.regions) (hbase : c.base = r.base) (hsize : c.size = r.size) :
    ¬Clear v.map.regions r := by
  intro hclear
  have hpos := hs.nonempty c hc
  have hdisj : Disjoint (span c.base.toNat c.size.toNat) (span r.base.toNat r.size.toNat) :=
    hclear.2.2 c hc
  rw [← hbase, ← hsize, disjoint_span_iff] at hdisj
  omega

theorem same_pair_iff (v : Vcpu U) (r : Region) :
    (r.base.toNat, r.size.toNat) ∈ claimedRanges v ↔
      ∃ c ∈ v.map.regions, c.base = r.base ∧ c.size = r.size := by
  constructor
  · intro h
    obtain ⟨c, hc, heq⟩ := h
    obtain ⟨hbase, hsize⟩ := Prod.mk.inj heq
    exact ⟨c, hc, BitVec.eq_of_toNat_eq hbase.symm, BitVec.eq_of_toNat_eq hsize.symm⟩
  · intro h
    obtain ⟨c, hc, hbase, hsize⟩ := h
    exact ⟨c, hc, by rw [hbase, hsize]⟩

theorem sound_push {b : Build} {v v' : Vcpu U} (hs : Sound b v) {r : Region}
    (hr : MemoryMap.Ends b r.base r.size) (hsize : r.size ≠ 0)
    (h : v'.map = ⟨MemoryMap.sortByBase (v.map.regions ++ [r])⟩) : Sound b v' := by
  have hmem : ∀ c ∈ v'.map.regions, c ∈ v.map.regions ∨ c = r := by
    intro c hc
    rw [h] at hc
    simpa [MemoryMap.mem_sortByBase] using hc
  constructor
  · intro c hc
    rcases hmem c hc with hc | rfl
    · exact hs.ends c hc
    · exact hr
  · intro c hc
    rcases hmem c hc with hc | rfl
    · exact hs.nonempty c hc
    · exact BitVec.toNat_pos_of_ne_zero hsize

end Claims

section Engine
variable {U : Type} [LawfulUnicorn U]

def mappedRanges (v : Vcpu U) : Set (ℕ × ℕ) :=
  {p | ∃ m ∈ (LawfulUnicorn.space v.uc).mappings, p = (m.base, m.size)}

/-- The three records hold the same ranges, so a range is refused as an overlap only
where the engine has something mapped. -/
structure Agree (b : Build) (v : Vcpu U) : Prop where
  listed : listedRanges v = claimedRanges v
  mapped : mappedRanges v = claimedRanges v
  refusal : ∀ base size prot e map, MemoryMap.Ends b base size →
    MemoryMap.insert b base size prot v.map = (.err e, map) →
      ∃ m ∈ (LawfulUnicorn.space v.uc).mappings, ¬Disjoint m.range (span base.toNat size.toNat)

/-! ### One range -/

/-- What came of a range: it was empty or seen to overlap and nothing changed, it was
mapped and entered in all three records, or the engine turned it down and it is
claimed all the same. -/
inductive Effect (v : Vcpu U) (r : Region) : Outcome VcpuError Unit × Vcpu U → Prop
  | stopped {e : VcpuError} {v' : Vcpu U}
      (hstop : r.size = 0 ∨ ∃ c ∈ v.map.regions, MemoryMap.Seen c r)
      (hclaims : v'.map = v.map) (hregions : v'.regions = v.regions)
      (hmappings : (LawfulUnicorn.space v'.uc).mappings = (LawfulUnicorn.space v.uc).mappings) :
      Effect v r (.err e, v')
  | done {v' : Vcpu U} (attr : Prot) (hsize : r.size ≠ 0)
      (hunseen : ¬∃ c ∈ v.map.regions, MemoryMap.Seen c r)
      (hfree : (LawfulUnicorn.space v.uc).Free pageBytes addressEnd r.base.toNat r.size.toNat)
      (hclaims : v'.map = ⟨MemoryMap.sortByBase (v.map.regions ++ [r])⟩)
      (hregions : v'.regions = v.regions ++ [(r.base, r.size, r.prot)])
      (hmappings : (LawfulUnicorn.space v'.uc).mappings =
        insert ⟨r.base.toNat, r.size.toNat, attr⟩ (LawfulUnicorn.space v.uc).mappings) :
      Effect v r (.ok (), v')
  | stale {e : VcpuError} {v' : Vcpu U} (hsize : r.size ≠ 0)
      (hunseen : ¬∃ c ∈ v.map.regions, MemoryMap.Seen c r)
      (hbusy : ¬(LawfulUnicorn.space v.uc).Free pageBytes addressEnd r.base.toNat r.size.toNat)
      (hclaims : v'.map = ⟨MemoryMap.sortByBase (v.map.regions ++ [r])⟩)
      (hregions : v'.regions = v.regions)
      (hmappings : (LawfulUnicorn.space v'.uc).mappings = (LawfulUnicorn.space v.uc).mappings) :
      Effect v r (.err e, v')

theorem mapRange_effect {b : Build} {v : Vcpu U} (hs : Sound b v) {r : Region} (prot : Prot)
    (hr : MemoryMap.Ends b r.base r.size) :
    (∃ e v', Vcpu.mapRange b r.base r.size r.prot prot v = (.err e, v') ∧ Effect v r (.err e, v')) ∨
    ∃ v', Vcpu.mapRange b r.base r.size r.prot prot v = (.ok (), v') ∧ r.size ≠ 0 ∧
      (¬∃ c ∈ v.map.regions, MemoryMap.Seen c r) ∧
      (LawfulUnicorn.space v.uc).Free pageBytes addressEnd r.base.toNat r.size.toNat ∧
      v'.map = ⟨MemoryMap.sortByBase (v.map.regions ++ [r])⟩ ∧ v'.regions = v.regions ∧
      LawfulUnicorn.space v'.uc = (LawfulUnicorn.space v.uc).map r.base.toNat r.size.toNat prot := by
  rcases MemoryMap.insert_seen_cases fun c hc => MemoryMap.overlaps_seen (hs.ends c hc) hr with
    ⟨hzero, hrun⟩ | ⟨hsize, hseen, hrun⟩ | ⟨hsize, hunseen, hrun⟩
  · rcases mapRange_claimed prot hrun with ⟨hfree, -⟩ | ⟨-, e, uc, hmap, hspace⟩
    · have hpos := hfree.pos
      rw [hzero] at hpos
      exact absurd hpos (lt_irrefl _)
    · exact Or.inl ⟨_, _, hmap, .stopped (Or.inl hzero) rfl rfl (by rw [hspace])⟩
  · exact Or.inl ⟨_, _, mapRange_refused prot hrun, .stopped (Or.inr hseen) rfl rfl rfl⟩
  · rcases mapRange_claimed prot hrun with ⟨hfree, uc, hmap, hspace⟩ | ⟨hbusy, e, uc, hmap, hspace⟩
    · exact Or.inr ⟨_, hmap, hsize, hunseen, hfree, rfl, rfl, hspace⟩
    · exact Or.inl ⟨_, _, hmap, .stale hsize hunseen hbusy rfl rfl (by rw [hspace])⟩

theorem mapMemory_effect {b : Build} {v : Vcpu U} (hs : Sound b v) {base size : U64} (prot : Prot)
    (hbound : base.toNat + size.toNat < addressEnd) :
    Effect v ⟨base, size, 0⟩ (Vcpu.mapMemory b base size prot v) := by
  have hends : MemoryMap.Ends b base size := ⟨hbound.le, fun _ => hbound⟩
  unfold Vcpu.mapMemory
  rcases mapRange_effect hs (r := ⟨base, size, 0⟩) prot hends with
    ⟨e, v', hrun, heff⟩ | ⟨v', hrun, hsize, hunseen, hfree, hclaims, hregions, hspace⟩
  · rw [Act.bind_of_err hrun]
    exact heff
  · rw [Act.bind_of_ok hrun]
    exact .done prot hsize hunseen hfree hclaims (by rw [← hregions]) (by rw [hspace]; rfl)

theorem mapSegment_claims {b : Build} {v : Vcpu U} (hs : Sound b v) {seg : Segment}
    (hv : seg.Valid) (hr : seg.Rounds b) : Effect v seg.claim (Vcpu.mapSegment b seg v) := by
  rcases mapRange_effect hs (Vcpu.protOf seg.flags) (Segment.claim_ends hv hr) with
    ⟨e, v', hrun, heff⟩ | ⟨v', hrun, hsize, hunseen, hfree, hclaims, hregions, hspace⟩
  · rw [mapSegment_refused hv hr hrun]
    exact heff
  · rw [Segment.claim_base, Segment.claim_size hv] at hspace
    obtain ⟨uc, hrun', hspace'⟩ := mapSegment_mapped hv hr hrun hspace
    rw [hrun']
    refine .done (Vcpu.protOf seg.flags) hsize hunseen hfree hclaims (by rw [← hregions]; rfl) ?_
    show (LawfulUnicorn.space uc).mappings = _
    rw [hspace', Segment.claim_base, Segment.claim_size hv]
    rfl

/-! ### The records after a range -/

/-- The records hold the same ranges. -/
def SameRanges (v : Vcpu U) : Prop :=
  listedRanges v = claimedRanges v ∧ mappedRanges v = claimedRanges v

theorem mappedRanges_push {v v' : Vcpu U} {r : Region} {attr : Prot}
    (h : (LawfulUnicorn.space v'.uc).mappings =
      insert ⟨r.base.toNat, r.size.toNat, attr⟩ (LawfulUnicorn.space v.uc).mappings) :
    mappedRanges v' = insert (r.base.toNat, r.size.toNat) (mappedRanges v) := by
  ext p
  unfold mappedRanges
  rw [h]
  simp only [Set.mem_insert_iff, Set.mem_ofPred_eq, exists_eq_or_imp]

theorem mapping_of_claim {v : Vcpu U} (h : SameRanges v) {c : Region} (hc : c ∈ v.map.regions) :
    ∃ m ∈ (LawfulUnicorn.space v.uc).mappings, m.range = c.range := by
  have hmem : (c.base.toNat, c.size.toNat) ∈ mappedRanges v := by
    rw [h.2]
    exact ⟨c, hc, rfl⟩
  obtain ⟨m, hm, heq⟩ := hmem
  obtain ⟨hbase, hsize⟩ := Prod.mk.inj heq
  exact ⟨m, hm, by rw [Mapping.range, ← hbase, ← hsize]; rfl⟩

theorem claim_of_mapping {v : Vcpu U} (h : SameRanges v) {m : Mapping Prot}
    (hm : m ∈ (LawfulUnicorn.space v.uc).mappings) : ∃ c ∈ v.map.regions, c.range = m.range := by
  have hmem : (m.base, m.size) ∈ claimedRanges v := by
    rw [← h.2]
    exact ⟨m, hm, rfl⟩
  obtain ⟨c, hc, heq⟩ := hmem
  obtain ⟨hbase, hsize⟩ := Prod.mk.inj heq
  exact ⟨c, hc, by rw [Mapping.range, hbase, hsize]; rfl⟩

theorem free_iff_clear {b : Build} {v : Vcpu U} (h : SameRanges v) {r : Region}
    (hr : MemoryMap.Ends b r.base r.size) (hsize : r.size ≠ 0) :
    (LawfulUnicorn.space v.uc).Free pageBytes addressEnd r.base.toNat r.size.toNat ↔
      Clear v.map.regions r := by
  constructor
  · intro hfree
    refine ⟨hfree.base_dvd, hfree.size_dvd, fun c hc => ?_⟩
    obtain ⟨m, hm, hrange⟩ := mapping_of_claim h hc
    rw [← hrange]
    exact hfree.clear m hm
  · intro hclear
    obtain ⟨hbase, hlen, hdisj⟩ := hclear
    refine ⟨hbase, hlen, BitVec.toNat_pos_of_ne_zero hsize, hr.1, fun m hm => ?_⟩
    obtain ⟨c, hc, hrange⟩ := claim_of_mapping h hm
    rw [← hrange]
    exact hdisj c hc

theorem Effect.records {b : Build} {v : Vcpu U} (hs : Sound b v) (h : SameRanges v) {r : Region}
    (hr : MemoryMap.Ends b r.base r.size) {res : Outcome VcpuError Unit} {v' : Vcpu U}
    (heff : Effect v r (res, v')) :
    Sound b v' ∧
      ((∃ e, res = .err e ∧ Stops v.map.regions r ∧ SameRanges v') ∨
        (res = .ok () ∧ ¬Stops v.map.regions r ∧ Clear v.map.regions r ∧
          SameRanges v' ∧ ∀ c, c ∈ v'.map.regions ↔ c ∈ r :: v.map.regions) ∨
        ∃ e, res = .err e ∧ ¬Stops v.map.regions r ∧ ¬Clear v.map.regions r ∧
          ¬SameRanges v') := by
  cases heff with
  | stopped hstop hclaims hregions hmappings =>
    have hsound : Sound b v' :=
      ⟨fun c hc => hs.ends c (hclaims ▸ hc), fun c hc => hs.nonempty c (hclaims ▸ hc)⟩
    refine ⟨hsound, Or.inl ⟨_, rfl, hstop.imp_right Or.inl, ?_⟩⟩
    have hc : claimedRanges v' = claimedRanges v := by rw [claimedRanges, hclaims]; rfl
    have hl : listedRanges v' = listedRanges v := by rw [listedRanges, hregions]; rfl
    have hm : mappedRanges v' = mappedRanges v := by rw [mappedRanges, hmappings]; rfl
    rw [SameRanges, hc, hl, hm]
    exact h
  | done attr hsize hunseen hfree hclaims hregions hmappings =>
    have hclear := (free_iff_clear h hr hsize).mp hfree
    refine ⟨sound_push hs hr hsize hclaims, Or.inr (Or.inl ⟨rfl, ?_, hclear, ?_, ?_⟩)⟩
    · rw [stops_iff hsize hunseen]
      intro hstop
      obtain ⟨c, hc, hbase, hlen⟩ := hstop
      exact not_clear_of_same hs hc hbase hlen hclear
    · rw [SameRanges, claimedRanges_push hclaims, listedRanges_push hregions,
        mappedRanges_push hmappings, h.1, h.2]
      exact ⟨rfl, rfl⟩
    · intro c
      rw [hclaims]
      simp [MemoryMap.mem_sortByBase, or_comm]
  | stale hsize hunseen hbusy hclaims hregions hmappings =>
    have hl : listedRanges v' = listedRanges v := by rw [listedRanges, hregions]; rfl
    have hm : mappedRanges v' = mappedRanges v := by rw [mappedRanges, hmappings]; rfl
    -- the new claim shows unless it was there before
    have hnew : SameRanges v' ↔ Stops v.map.regions r := by
      rw [stops_iff hsize hunseen, ← same_pair_iff, SameRanges, claimedRanges_push hclaims, hl, hm,
        h.1, h.2, and_self, eq_comm, Set.insert_eq_self]
    refine ⟨sound_push hs hr hsize hclaims, ?_⟩
    by_cases hstop : Stops v.map.regions r
    · exact Or.inl ⟨_, rfl, hstop, hnew.mpr hstop⟩
    · refine Or.inr (Or.inr ⟨_, rfl, hstop, ?_, fun hsame => hstop (hnew.mp hsame)⟩)
      intro hclear
      exact hbusy ((free_iff_clear h hr hsize).mpr hclear)

/-! ### One call -/

theorem mapMemory_settled {b : Build} {v : Vcpu U} (hs : Sound b v) (h : SameRanges v)
    {base size : U64} (prot : Prot) (hbound : base.toNat + size.toNat < addressEnd) :
    Sound b (Vcpu.mapMemory b base size prot v).2 ∧
      (SameRanges (Vcpu.mapMemory b base size prot v).2 ↔
        Settled v.map.regions [⟨base, size, 0⟩]) := by
  have heff := mapMemory_effect hs prot hbound
  obtain ⟨hsound, hcases⟩ := heff.records hs h ⟨hbound.le, fun _ => hbound⟩
  refine ⟨hsound, ?_⟩
  rcases hcases with ⟨e, -, hstop, hsame⟩ | ⟨-, -, hclear, hsame, -⟩ | ⟨e, -, hstop, hclear, hsame⟩
  · exact iff_of_true hsame (Or.inl hstop)
  · exact iff_of_true hsame (Or.inr ⟨hclear, trivial⟩)
  · refine iff_of_false hsame fun hset => ?_
    rcases hset with hset | ⟨hset, -⟩
    · exact hstop hset
    · exact hclear hset

theorem mapLoop_settled {b : Build} (segs : List Segment) {v : Vcpu U}
    (hv : ∀ seg ∈ segs, seg.Valid) (hs : Sound b v) (h : SameRanges v) :
    Sound b (segs.forM (Vcpu.mapSegment b) v).2 ∧
      (SameRanges (segs.forM (Vcpu.mapSegment b) v).2 ↔ Settled v.map.regions
        ((segs.takeWhile fun seg => seg.Rounds b).map Segment.claim)) := by
  induction segs generalizing v with
  | nil => exact ⟨hs, iff_of_true h trivial⟩
  | cons seg segs ih =>
    have hseg := hv seg (List.mem_cons_self ..)
    rw [Act.forM_cons_apply]
    by_cases hr : seg.Rounds b
    swap
    · rw [Act.bind_of_fault (mapSegment_unrounded hseg hr), List.takeWhile_cons_of_neg (by simpa)]
      exact ⟨hs, iff_of_true h trivial⟩
    rw [List.takeWhile_cons_of_pos (by simpa), List.map_cons]
    rcases hrun : Vcpu.mapSegment b seg v with ⟨res, v₁⟩
    have heff := mapSegment_claims hs hseg hr
    rw [hrun] at heff
    obtain ⟨hsound, hcases⟩ := heff.records hs h (Segment.claim_ends hseg hr)
    rcases hcases with ⟨e, rfl, hstop, hsame⟩ | ⟨rfl, hstop, hclear, hsame, hclaims⟩ |
      ⟨e, rfl, hstop, hclear, hsame⟩
    · rw [Act.bind_of_err hrun]
      exact ⟨hsound, iff_of_true hsame (Or.inl hstop)⟩
    · -- the segment is in all three records and the loop goes on
      rw [Act.bind_of_ok hrun]
      obtain ⟨hsound', hiff⟩ := ih (fun s hs => hv s (List.mem_cons_of_mem _ hs)) hsound hsame
      refine ⟨hsound', hiff.trans ?_⟩
      rw [settled_congr hclaims]
      constructor
      · exact fun hset => Or.inr ⟨hclear, hset⟩
      · intro hset
        exact (hset.resolve_left hstop).2
    · rw [Act.bind_of_err hrun]
      refine ⟨hsound, iff_of_false hsame fun hset => ?_⟩
      rcases hset with hset | ⟨hset, -⟩
      · exact hstop hset
      · exact hclear hset

theorem run_settled {b : Build} {v : Vcpu U} (hs : Sound b v) (h : SameRanges v) (call : MapCall) :
    Sound b (call.run b v).2 ∧
      (SameRanges (call.run b v).2 ↔ Settled v.map.regions (call.ranges b)) := by
  cases call with
  | mapElf image accepted =>
    obtain ⟨b', parse, bytes, hload⟩ := accepted
    exact mapLoop_settled image.segments (loadElf_valid hload) hs h
  | mapMemory base size prot bounded => exact mapMemory_settled hs h prot bounded
  | mapStack base size bounded => exact mapMemory_settled hs h _ bounded

/-! ### Every run -/

theorem agree_iff {b : Build} {v : Vcpu U} (hs : Sound b v) : Agree b v ↔ SameRanges v := by
  constructor
  · intro h
    exact ⟨h.listed, h.mapped⟩
  · intro h
    refine ⟨h.1, h.2, fun base size prot e map hends hrun => ?_⟩
    rcases MemoryMap.insert_sound hs.ends prot hends with ⟨⟨c, hc, hmeet⟩, -⟩ | ⟨map', hok, -⟩
    · have hsize : 0 < size.toNat := by
        apply BitVec.toNat_pos_of_ne_zero
        intro hzero
        simp [MemoryMap.insert, hzero] at hrun
      obtain ⟨m, hm, hrange⟩ := mapping_of_claim h hc
      refine ⟨m, hm, ?_⟩
      rw [hrange]
      exact (not_disjoint_span_iff (hs.nonempty c hc) hsize).mpr hmeet
    · rw [hrun] at hok
      cases hok

/-- The `Vcpu` after a list of calls, whatever each of them returned. -/
def vcpuAfter (b : Build) (dispatch : Dispatch (UnicornGuest U)) (uc : U) (calls : List MapCall) :
    Vcpu U :=
  (Act.runAll (MapCall.run b) calls (Vcpu.new dispatch uc)).2

/-- The records agree in every state of a run as long as each range a call claims is
refused by the claim map, or claimed already, or one the engine can map. -/
theorem bookkeeping_iff (b : Build) (dispatch : Dispatch (UnicornGuest U)) (uc : U)
    (huc : LawfulUnicorn.space uc = AddressSpace.empty) (calls : List MapCall) :
    (∀ pre, pre <+: calls → Agree b (vcpuAfter b dispatch uc pre)) ↔
      ∀ pre call, pre ++ [call] <+: calls →
        Settled (vcpuAfter b dispatch uc pre).map.regions (call.ranges b) := by
  have hsound : Sound b (Vcpu.new dispatch uc) :=
    ⟨by simp [Vcpu.new, MemoryMap.new], by simp [Vcpu.new, MemoryMap.new]⟩
  have hsame : SameRanges (Vcpu.new dispatch uc) := by
    unfold SameRanges listedRanges claimedRanges mappedRanges
    simp [Vcpu.new, MemoryMap.new, huc, AddressSpace.empty]
  have hstep : ∀ (v : Vcpu U) (call : MapCall), Sound b v ∧ SameRanges v →
      (Sound b (call.run b v).2 ∧ SameRanges (call.run b v).2 ↔
        Settled v.map.regions (call.ranges b)) := by
    intro v call h
    obtain ⟨hs, hiff⟩ := run_settled h.1 h.2 call
    rw [← hiff]
    exact and_iff_right hs
  apply Iff.trans _ (Act.runAll_invariant_iff hstep ⟨hsound, hsame⟩)
  constructor
  · intro hagree
    have hrecords : ∀ pre, pre <+: calls → SameRanges (vcpuAfter b dispatch uc pre) :=
      fun pre hpre => ⟨(hagree pre hpre).listed, (hagree pre hpre).mapped⟩
    have hsounds : ∀ pre, pre <+: calls → Sound b (vcpuAfter b dispatch uc pre) := by
      apply Act.runAll_invariant (C := fun v _ => SameRanges v) _ hsound
      · exact fun pre call hpre => hrecords pre ((List.prefix_append pre [call]).trans hpre)
      · exact fun v call hs h => (run_settled hs h call).1
    exact fun pre hpre => ⟨hsounds pre hpre, hrecords pre hpre⟩
  · intro h pre hpre
    exact (agree_iff (h pre hpre).1).mpr (h pre hpre).2

end Engine

def pageThenAcross : List MapCall :=
  [.mapMemory 0x2000 0x1000 Prot.READ (by decide), .mapMemory 0x2800 0x1000 Prot.READ (by decide)]

theorem pageThenAcross_agree :
    Agree .release (vcpuAfter .release (stage1 .release none) FlatEngine.new pageThenAcross) := by
  have hcalls : Act.AllCalls (MapCall.run .release)
      (fun (v : Vcpu FlatEngine) call => Settled v.map.regions (call.ranges .release))
      pageThenAcross (Vcpu.new (stage1 .release none) FlatEngine.new) := by
    decide +kernel
  exact (bookkeeping_iff .release (stage1 .release none) FlatEngine.new FlatEngine.space_new
    pageThenAcross).mpr hcalls.at_call pageThenAcross List.prefix_rfl

/- The engine turns a range down that starts inside a page, and the free page next to
it is then refused as an overlap. -/
theorem unaligned_stays_claimed :
    let v := vcpuAfter .release (stage1 .release none) FlatEngine.new
      [.mapMemory 0x1001 0x1000 Prot.READ (by decide)]
    v.map.regions = [⟨0x1001, 0x1000, 0⟩] ∧ v.regions = [] ∧ v.uc.mappings = [] ∧
      ¬Agree .release v ∧
      (Vcpu.mapMemory .release 0x2000 0x1000 Prot.READ v).1 =
        .err (.map 0x2000 "guest address space overlap") := by
  intro v
  have hclaims : v.map.regions = [⟨0x1001, 0x1000, 0⟩] := by decide +kernel
  have hregions : v.regions = [] := by decide +kernel
  refine ⟨hclaims, hregions, by decide +kernel, fun hagree => ?_, by decide +kernel⟩
  have hmem : (0x1001, 0x1000) ∈ listedRanges v := by
    rw [hagree.listed]
    exact ⟨⟨0x1001, 0x1000, 0⟩, by rw [hclaims]; exact List.mem_singleton_self _, rfl⟩
  obtain ⟨t, ht, -⟩ := hmem
  rw [hregions] at ht
  cases ht

end WinVpwn.Cpu
