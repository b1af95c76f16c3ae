import WinVpwn.Elf.Loader

/-!
# The loop over the `PT_LOAD` headers

One header either breaks a rule of the loader, or asks for more than a buffer can
hold, or adds exactly its segment. The loop invariant ties the segments and the
map built so far to the headers already read.
-/

namespace WinVpwn.Elf
open Rust Lib WinVpwn.Memory

namespace ProgramHeader

def range (p : ProgramHeader) : Set ℕ := span p.pVaddr.toNat p.pMemsz.toNat

/-- The documented bounds: no wrap in the guest, and a file range inside the image. -/
structure InBounds (image : Image) (p : ProgramHeader) : Prop where
  guest : p.pVaddr.toNat + p.pMemsz.toNat < 2 ^ 64
  file : p.pOffset.toNat + p.pFilesz.toNat ≤ image.bytes.length

/-- The file part fits the buffer, and the buffer can be requested. -/
structure Sized (p : ProgramHeader) : Prop where
  filesz : p.pFilesz.toNat ≤ p.pMemsz.toNat
  memsz : p.pMemsz.toNat ≤ isizeMax

/-- The segment a header describes: its file bytes, then zeros. -/
def segment (image : Image) (p : ProgramHeader) : Segment where
  vaddr := p.pVaddr
  memsz := p.pMemsz
  filesz := p.pFilesz
  data := (image.bytes.drop p.pOffset.toNat).take p.pFilesz.toNat ++
    List.replicate (p.pMemsz.toNat - p.pFilesz.toNat) 0
  flags := p.pFlags
  align := p.pAlign

end ProgramHeader

/-- The documented conditions on the loadable headers: each in bounds, no two
overlapping. -/
structure Accepts (image : Image) (ps : List ProgramHeader) : Prop where
  bounds : ∀ p ∈ ps, p.InBounds image
  disjoint : ps.Pairwise fun p q => Disjoint p.range q.range

theorem accepts_snoc (image : Image) (ps : List ProgramHeader) (p : ProgramHeader) :
    Accepts image (ps ++ [p]) ↔
      Accepts image ps ∧ p.InBounds image ∧ ∀ q ∈ ps, Disjoint q.range p.range := by
  constructor
  · intro h
    obtain ⟨hb, hd⟩ := h
    rw [List.pairwise_append] at hd
    exact ⟨⟨fun q hq => hb q (List.mem_append_left _ hq), hd.1⟩,
      hb p (List.mem_append_right _ (List.mem_singleton_self p)),
      fun q hq => hd.2.2 q hq p (List.mem_singleton_self p)⟩
  · intro h
    obtain ⟨⟨hb, hd⟩, hp, hq⟩ := h
    refine ⟨?_, List.pairwise_append.mpr ⟨hd, List.pairwise_singleton _ _, ?_⟩⟩
    · intro q hmem
      rcases List.mem_append.mp hmem with hmem | hmem
      · exact hb q hmem
      · exact List.mem_singleton.mp hmem ▸ hp
    · intro q hmem r hr
      exact List.mem_singleton.mp hr ▸ hq q hmem

theorem accepts_of_append {image : Image} {ps : List ProgramHeader} (qs : List ProgramHeader)
    (h : Accepts image (ps ++ qs)) : Accepts image ps :=
  ⟨fun p hp => h.bounds p (List.mem_append_left _ hp), (List.pairwise_append.mp h.disjoint).1⟩

/-- Every header the loop gets to, that is every one that is in order together
with those before it, has a buffer that holds its file part. -/
def BuffersFit (image : Image) (ps : List ProgramHeader) : Prop :=
  ∀ pre p post, ps = pre ++ p :: post → Accepts image (pre ++ [p]) → p.Sized

theorem buffersFit_of_sized (image : Image) {ps : List ProgramHeader} (h : ∀ p ∈ ps, p.Sized) :
    BuffersFit image ps := by
  intro pre p post hsplit _
  exact h p (by rw [hsplit]; exact List.mem_append_right _ (List.mem_cons_self ..))

theorem sized_of_accepts {image : Image} {ps : List ProgramHeader} (hfit : BuffersFit image ps)
    (hacc : Accepts image ps) : ∀ p ∈ ps, p.Sized := by
  intro p hp
  obtain ⟨pre, post, rfl⟩ := List.append_of_mem hp
  refine hfit pre p post rfl (accepts_of_append post ?_)
  simpa using hacc

/-- The state after the headers `ps`: their segments in order, and a map that
claims the non-empty ranges among them and nothing else. -/
structure LoadInv (image : Image) (ps : List ProgramHeader) (st : LoadState) : Prop where
  segments : st.segments = ps.map (·.segment image)
  wf : st.map.Wf
  claimed : ∀ r, r ∈ st.map.regions ↔
    ∃ p ∈ ps, 0 < p.pMemsz.toNat ∧ r = ⟨p.pVaddr, p.pMemsz, p.pFlags⟩

theorem loadInv_nil (image : Image) : LoadInv image [] ⟨[], MemoryMap.new⟩ :=
  ⟨rfl, MemoryMap.wf_new, by simp [MemoryMap.new]⟩

/- On a map in order the search asks only whether a region holds the address: a
region based there is not empty and holds it. -/
theorem culprit_eq {ε : Type} (b : Build) {map : MemoryMap} (hm : map.Wf) (vaddr : U64) :
    (culprit b map vaddr : Outcome ε U64) = .ok
      (((map.regions.find? fun r => vaddr.toNat ∈ r.range).map Region.base).getD 0) := by
  have hfind : ∀ rs : List Region, (∀ r ∈ rs, MemoryMap.Bounded r ∧ 0 < r.size.toNat) →
      (rs.findM? fun r => do
        if ← r.contains b vaddr then return true else return decide (vaddr = r.base)) =
        (Outcome.ok (rs.find? fun r => vaddr.toNat ∈ r.range) : Outcome ε _) := by
    intro rs hrs
    induction rs with
    | nil => rfl
    | cons r rs ih =>
      obtain ⟨hr, hrest⟩ := List.forall_mem_cons.mp hrs
      rw [List.findM?, MemoryMap.contains_eq b hr.1, Outcome.ok_bind, List.find?_cons]
      by_cases hin : vaddr.toNat ∈ r.range
      · rw [decide_eq_true hin]
        rfl
      · have hbase : vaddr ≠ r.base := by
          intro h
          exact hin (Region.mem_range.mpr ⟨by rw [h], by rw [h]; omega⟩)
        rw [decide_eq_false hin, decide_eq_false hbase]
        exact ih hrest
  rw [culprit, hfind map.regions fun r hr => ⟨hm.bounded r hr, hm.nonempty r hr⟩]
  rfl

def ElfError.IsOverlap : ElfError → Prop
  | .segmentOverlap _ _ => True
  | _ => False

/-- What an overlap error names after the headers `ps`: the one whose range holds
`vaddr`, or 0 when there is none. -/
def Blames (ps : List ProgramHeader) (vaddr other : U64) : Prop :=
  (∃ q ∈ ps, vaddr.toNat ∈ q.range ∧ q.pVaddr = other) ∨
    ((∀ q ∈ ps, vaddr.toNat ∉ q.range) ∧ other = 0)

section Step
variable (b : Build) {image : Image} {ps : List ProgramHeader} {st : LoadState}
  (hinv : LoadInv image ps st) (p : ProgramHeader)
include hinv

theorem clash_iff : st.map.Clash p.pVaddr p.pMemsz ↔ ¬∀ q ∈ ps, Disjoint q.range p.range := by
  push Not
  constructor
  · intro h
    obtain ⟨r, hr, hmeet⟩ := h
    obtain ⟨q, hq, -, rfl⟩ := (hinv.claimed r).mp hr
    exact ⟨q, hq, hmeet⟩
  · intro h
    obtain ⟨q, hq, hmeet⟩ := h
    have hpos : 0 < q.pMemsz.toNat := by
      by_contra hzero
      exact hmeet (disjoint_span_iff.mpr (Or.inl (by omega)))
    exact ⟨_, (hinv.claimed _).mpr ⟨q, hq, hpos, rfl⟩, hmeet⟩

theorem claimed_snoc (r : Region) :
    (∃ q ∈ ps ++ [p], 0 < q.pMemsz.toNat ∧ r = ⟨q.pVaddr, q.pMemsz, q.pFlags⟩) ↔
      r ∈ st.map.regions ∨ (0 < p.pMemsz.toNat ∧ r = ⟨p.pVaddr, p.pMemsz, p.pFlags⟩) := by
  rw [hinv.claimed]
  constructor
  · intro h
    obtain ⟨q, hq, hr⟩ := h
    rcases List.mem_append.mp hq with hq | hq
    · exact Or.inl ⟨q, hq, hr⟩
    · exact Or.inr (List.mem_singleton.mp hq ▸ hr)
  · intro h
    rcases h with ⟨q, hq, hr⟩ | hr
    · exact ⟨q, List.mem_append_left _ hq, hr⟩
    · exact ⟨p, List.mem_append_right _ (List.mem_singleton_self p), hr⟩

theorem culprit_blames {ε : Type} (vaddr : U64) :
    ∃ other, (culprit b st.map vaddr : Outcome ε U64) = .ok other ∧ Blames ps vaddr other := by
  refine ⟨_, culprit_eq b hinv.wf vaddr, ?_⟩
  cases hfound : st.map.regions.find? fun r => vaddr.toNat ∈ r.range with
  | none =>
    refine .inr ⟨?_, rfl⟩
    intro q hq hin
    have hnone := List.find?_eq_none.mp hfound ⟨q.pVaddr, q.pMemsz, q.pFlags⟩
    have hpos : 0 < q.pMemsz.toNat := by
      have hlo := hin.1
      have hhi := hin.2
      omega
    exact hnone ((hinv.claimed _).mpr ⟨q, hq, hpos, rfl⟩) (decide_eq_true hin)
  | some r =>
    have hin := List.find?_some hfound
    rw [decide_eq_true_eq] at hin
    obtain ⟨q, hq, -, rfl⟩ := (hinv.claimed r).mp (List.mem_of_find?_eq_some hfound)
    exact .inl ⟨q, hq, hin, rfl⟩

theorem claim_cases (hbound : p.pVaddr.toNat + p.pMemsz.toNat < 2 ^ 64) :
    ((∀ q ∈ ps, Disjoint q.range p.range) ∧ ∃ map, map.Wf ∧
      (∀ r, r ∈ map.regions ↔
        ∃ q ∈ ps ++ [p], 0 < q.pMemsz.toNat ∧ r = ⟨q.pVaddr, q.pMemsz, q.pFlags⟩) ∧
      claim b p.pVaddr p.pMemsz p.pFlags st = (.ok (), { st with map := map })) ∨
    ((¬∀ q ∈ ps, Disjoint q.range p.range) ∧ ∃ other, Blames ps p.pVaddr other ∧
      claim b p.pVaddr p.pMemsz p.pFlags st = (.err (.segmentOverlap p.pVaddr other), st)) := by
  unfold claim
  rcases MemoryMap.insert_cases b hinv.wf p.pFlags hbound with
    ⟨hzero, hrun⟩ | ⟨hpos, hclash, hrun⟩ | ⟨hpos, hclash, hrun⟩
  · have hsize : p.pMemsz.toNat = 0 := by rw [hzero]; rfl
    refine Or.inl ⟨?_, st.map, hinv.wf, ?_, by rw [hrun]⟩
    · intro q _
      exact disjoint_span_iff.mpr (Or.inr (Or.inl hsize))
    · intro r
      rw [claimed_snoc hinv, hsize]
      simp
  · obtain ⟨other, hother, hblames⟩ := culprit_blames (ε := ElfError) b hinv p.pVaddr
    refine Or.inr ⟨(clash_iff hinv p).mp hclash, other, hblames, ?_⟩
    rw [hrun]
    simp only [hother, Outcome.ok_bind]
  · refine Or.inl ⟨by rw [clash_iff hinv] at hclash; exact not_not.mp hclash, _,
      MemoryMap.wf_push hinv.wf ⟨p.pVaddr, p.pMemsz, p.pFlags⟩ hbound hpos hclash, ?_, by rw [hrun]⟩
    intro r
    rw [MemoryMap.mem_sortByBase, List.mem_append, List.mem_singleton, claimed_snoc hinv]
    simp only [hpos, true_and]

end Step

theorem segmentData_cases {ε : Type} (image : Image) (p : ProgramHeader) {fileEnd : U64}
    (hend : fileEnd.toNat = p.pOffset.toNat + p.pFilesz.toNat)
    (hfile : p.pOffset.toNat + p.pFilesz.toNat ≤ image.bytes.length) :
    (p.Sized ∧ (segmentData image p fileEnd : Outcome ε _) = .ok (p.segment image).data) ∨
    (¬p.Sized ∧ ∃ f, (segmentData image p fileEnd : Outcome ε _) = .fault f) := by
  unfold segmentData
  rw [hend]
  by_cases hmem : p.pMemsz.toNat ≤ isizeMax
  swap
  · refine Or.inr ⟨fun h => hmem h.memsz, .capacity, ?_⟩
    simp [zeroed, reserve, hmem]
  have hlen : ((image.bytes.drop p.pOffset.toNat).take p.pFilesz.toNat).length = p.pFilesz.toNat := by
    rw [List.length_take, List.length_drop]
    omega
  rw [zeroed_eq _ hmem, slice_eq _ _ _ (Nat.le_add_right _ _) hfile]
  simp only [Outcome.ok_bind, Nat.add_sub_cancel_left]
  by_cases hsize : p.pFilesz.toNat ≤ p.pMemsz.toNat
  · refine Or.inl ⟨⟨hsize, hmem⟩, ?_⟩
    rw [copyInto_eq _ _ _ (by simpa [hlen] using hsize)]
    simp [ProgramHeader.segment, hlen]
  · refine Or.inr ⟨fun h => hsize h.filesz, .slice, ?_⟩
    have hover : ¬0 + ((image.bytes.drop p.pOffset.toNat).take p.pFilesz.toNat).length ≤
        (List.replicate p.pMemsz.toNat (0 : U8)).length := by
      rw [hlen, List.length_replicate]
      omega
    simp only [copyInto, if_neg hover]

theorem loadFile_cases (image : Image) (p : ProgramHeader) (st : LoadState) :
    (¬p.pOffset.toNat + p.pFilesz.toNat ≤ image.bytes.length ∧
      ∃ reason, loadFile image p st = (.err (.truncated reason), st)) ∨
    (p.pOffset.toNat + p.pFilesz.toNat ≤ image.bytes.length ∧ ¬p.Sized ∧
      ∃ f, loadFile image p st = (.fault f, st)) ∨
    (p.pOffset.toNat + p.pFilesz.toNat ≤ image.bytes.length ∧ p.Sized ∧
      loadFile image p st = (.ok (), { st with segments := st.segments ++ [p.segment image] })) := by
  -- an image is shorter than `2^63`, so a sum that lies inside it does not wrap
  have hlen : image.bytes.length < 2 ^ 63 := Nat.lt_of_le_pred (by norm_num) image.length_le
  unfold loadFile
  simp only [Act.bind_apply, Act.lift_apply, checkedAdd]
  by_cases hsum : p.pOffset.toNat + p.pFilesz.toNat < 2 ^ 64
  swap
  · refine Or.inl ⟨by omega, ?_⟩
    rw [if_neg hsum]
    exact ⟨_, rfl⟩
  have hend := toNat_add_of_lt p.pOffset p.pFilesz hsum
  simp only [if_pos hsum, Outcome.okOr, Outcome.bailIf]
  by_cases hfile : p.pOffset.toNat + p.pFilesz.toNat ≤ image.bytes.length
  swap
  · refine Or.inl ⟨hfile, ?_⟩
    rw [if_pos (by omega)]
    exact ⟨_, rfl⟩
  rw [if_neg (by omega)]
  rcases segmentData_cases (ε := ElfError) image p hend hfile with ⟨hsized, hdata⟩ | ⟨hsized, f, hdata⟩
  · refine Or.inr (Or.inr ⟨hfile, hsized, ?_⟩)
    simp only [hdata, Act.modify_apply, ProgramHeader.segment]
  · refine Or.inr (Or.inl ⟨hfile, hsized, f, ?_⟩)
    simp only [hdata]

theorem loadPhdr_wraps (b : Build) (image : Image) {p : ProgramHeader} (st : LoadState)
    (h : ¬p.pVaddr.toNat + p.pMemsz.toNat < 2 ^ 64) :
    loadPhdr b image p st = (.err (.badPhdr "PT_LOAD vaddr+memsz overflows"), st) := by
  simp only [loadPhdr, Act.bind_apply, Act.lift_apply, checkedAdd, if_neg h, Outcome.okOr]

/- Where the end does not wrap, the size claimed is `p_memsz` again. -/
theorem loadPhdr_eq (b : Build) (image : Image) {p : ProgramHeader} (st : LoadState)
    (h : p.pVaddr.toNat + p.pMemsz.toNat < 2 ^ 64) :
    loadPhdr b image p st =
      (claim b p.pVaddr p.pMemsz p.pFlags >>= fun _ => loadFile image p) st := by
  have hstop := toNat_add_of_lt p.pVaddr p.pMemsz h
  have hsize : p.pVaddr + p.pMemsz - p.pVaddr = p.pMemsz := by
    rw [BitVec.add_comm, BitVec.add_sub_cancel]
  have hsub : (b.sub (p.pVaddr + p.pMemsz) p.pVaddr : Outcome ElfError U64) = .ok p.pMemsz := by
    rw [Build.sub_eq b _ _ (by omega), hsize]
  unfold loadPhdr
  rw [Act.bind_apply, Act.lift_apply, checkedAdd, if_pos h]
  simp only [Outcome.okOr]
  rw [Act.bind_apply, Act.lift_apply, hsub]

theorem loadPhdr_outcomes (b : Build) {image : Image} {ps : List ProgramHeader} {st : LoadState}
    (hinv : LoadInv image ps st) (p : ProgramHeader) :
    ((p.pVaddr.toNat + p.pMemsz.toNat < 2 ^ 64 ∧ ¬∀ q ∈ ps, Disjoint q.range p.range) ∧
      ∃ other, Blames ps p.pVaddr other ∧
        loadPhdr b image p st = (.err (.segmentOverlap p.pVaddr other), st)) ∨
    (¬(p.pVaddr.toNat + p.pMemsz.toNat < 2 ^ 64 ∧ ¬∀ q ∈ ps, Disjoint q.range p.range) ∧
      ¬p.InBounds image ∧ ∃ e st', ¬e.IsOverlap ∧ loadPhdr b image p st = (.err e, st')) ∨
    ((p.InBounds image ∧ ∀ q ∈ ps, Disjoint q.range p.range) ∧ ¬p.Sized ∧
      ∃ f st', loadPhdr b image p st = (.fault f, st')) ∨
    ((p.InBounds image ∧ ∀ q ∈ ps, Disjoint q.range p.range) ∧ p.Sized ∧
      ∃ st', loadPhdr b image p st = (.ok (), st') ∧ LoadInv image (ps ++ [p]) st') := by
  by_cases hguest : p.pVaddr.toNat + p.pMemsz.toNat < 2 ^ 64
  swap
  · exact Or.inr (Or.inl ⟨fun h => hguest h.1, fun h => hguest h.guest, _, st, id,
      loadPhdr_wraps b image st hguest⟩)
  rw [loadPhdr_eq b image st hguest]
  rcases claim_cases b hinv p hguest with ⟨hdisj, map, hwf, hclaimed, hrun⟩ | ⟨hmeet, other, hblames, hrun⟩
  swap
  · exact Or.inl ⟨⟨hguest, hmeet⟩, other, hblames, Act.bind_of_err hrun⟩
  rw [Act.bind_of_ok hrun]
  rcases loadFile_cases image p { st with map := map } with
    ⟨hfile, reason, hload⟩ | ⟨hfile, hsized, f, hload⟩ | ⟨hfile, hsized, hload⟩
  · exact Or.inr (Or.inl ⟨fun h => h.2 hdisj, fun h => hfile h.file, _, _, id, hload⟩)
  · exact Or.inr (Or.inr (Or.inl ⟨⟨⟨hguest, hfile⟩, hdisj⟩, hsized, f, _, hload⟩))
  · refine Or.inr (Or.inr (Or.inr ⟨⟨⟨hguest, hfile⟩, hdisj⟩, hsized, _, hload, ?_, hwf, hclaimed⟩))
    rw [List.map_append, hinv.segments]
    rfl

theorem loadPhdr_cases (b : Build) {image : Image} {ps : List ProgramHeader} {st : LoadState}
    (hinv : LoadInv image ps st) (p : ProgramHeader) :
    (¬(p.InBounds image ∧ ∀ q ∈ ps, Disjoint q.range p.range) ∧
      ∃ e st', loadPhdr b image p st = (.err e, st')) ∨
    ((p.InBounds image ∧ ∀ q ∈ ps, Disjoint q.range p.range) ∧ ¬p.Sized ∧
      ∃ f st', loadPhdr b image p st = (.fault f, st')) ∨
    ((p.InBounds image ∧ ∀ q ∈ ps, Disjoint q.range p.range) ∧ p.Sized ∧
      ∃ st', loadPhdr b image p st = (.ok (), st') ∧ LoadInv image (ps ++ [p]) st') := by
  rcases loadPhdr_outcomes b hinv p with
    ⟨hmeet, other, -, hrun⟩ | ⟨-, hbad, e, st', -, hrun⟩ | hfault | hok
  · exact Or.inl ⟨fun h => hmeet.2 h.2, _, st, hrun⟩
  · exact Or.inl ⟨fun h => hbad h.1, e, st', hrun⟩
  · exact Or.inr (Or.inl hfault)
  · exact Or.inr (Or.inr hok)

/-! ### The whole loop -/

section Loop
variable (b : Build) {image : Image}

/-- `BuffersFit`, for the headers `ps` still to come after the headers `done`. -/
def FitFrom (image : Image) (done ps : List ProgramHeader) : Prop :=
  ∀ pre p post, ps = pre ++ p :: post → Accepts image (done ++ pre ++ [p]) → p.Sized

theorem fitFrom_of_not_accepts {done : List ProgramHeader} (h : ¬Accepts image done)
    (ps : List ProgramHeader) : FitFrom image done ps := by
  intro pre p post _ hacc
  rw [List.append_assoc] at hacc
  exact absurd (accepts_of_append (pre ++ [p]) hacc) h

theorem fitFrom_cons (done : List ProgramHeader) (p : ProgramHeader) (ps : List ProgramHeader) :
    FitFrom image done (p :: ps) ↔
      (Accepts image (done ++ [p]) → p.Sized) ∧ FitFrom image (done ++ [p]) ps := by
  constructor
  · intro h
    refine ⟨fun hp => h [] p ps rfl (by rwa [List.append_nil]), ?_⟩
    intro pre q post hsplit hq
    refine h (p :: pre) q post ?_ ?_
    · rw [hsplit, List.cons_append]
    · simpa using hq
  · intro h pre q post hsplit hq
    cases pre with
    | nil =>
      rw [List.nil_append, List.cons.injEq] at hsplit
      rw [List.append_nil] at hq
      exact hsplit.1 ▸ h.1 (hsplit.1 ▸ hq)
    | cons r pre =>
      rw [List.cons_append, List.cons.injEq] at hsplit
      apply h.2 pre q post hsplit.2
      simpa [hsplit.1] using hq

theorem loadLoop_cases (ps : List ProgramHeader) {done : List ProgramHeader} {st : LoadState}
    (hacc : Accepts image done) (hinv : LoadInv image done st) :
    (¬Accepts image (done ++ ps) ∧ FitFrom image done ps ∧
      ∃ e st', ps.forM (loadPhdr b image) st = (.err e, st')) ∨
    (¬FitFrom image done ps ∧ ∃ f st', ps.forM (loadPhdr b image) st = (.fault f, st')) ∨
    (Accepts image (done ++ ps) ∧ (∀ p ∈ ps, p.Sized) ∧
      ∃ st', ps.forM (loadPhdr b image) st = (.ok (), st') ∧ LoadInv image (done ++ ps) st') := by
  induction ps generalizing done st with
  | nil =>
    refine Or.inr (Or.inr ⟨?_, by simp, st, rfl, ?_⟩)
    · simpa using hacc
    · simpa using hinv
  | cons p ps ih =>
    have happ : done ++ p :: ps = done ++ [p] ++ ps := by simp
    rw [fitFrom_cons, happ]
    rcases loadPhdr_cases b hinv p with
      ⟨hbad, e, st', hrun⟩ | ⟨hin, hsized, f, st', hrun⟩ | ⟨hin, hsized, st', hrun, hinv'⟩
    · -- a rule broken at `p`: no longer prefix is in order
      have hnot : ¬Accepts image (done ++ [p]) := by
        rw [accepts_snoc]
        exact fun h => hbad h.2
      refine Or.inl ⟨fun h => hnot (accepts_of_append ps h), ⟨fun h => absurd h hnot, ?_⟩, e, st', ?_⟩
      · exact fitFrom_of_not_accepts hnot ps
      · rw [Act.forM_cons_apply, Act.bind_of_err hrun]
    · refine Or.inr (Or.inl ⟨fun h => hsized (h.1 ?_), f, st', ?_⟩)
      · exact (accepts_snoc ..).mpr ⟨hacc, hin⟩
      · rw [Act.forM_cons_apply, Act.bind_of_fault hrun]
    · have hacc' : Accepts image (done ++ [p]) := (accepts_snoc ..).mpr ⟨hacc, hin⟩
      rw [Act.forM_cons_apply, Act.bind_of_ok hrun]
      rcases ih hacc' hinv' with ⟨hbad, hfit, hrest⟩ | ⟨hunfit, hrest⟩ | ⟨hall, hfit, hrest⟩
      · exact Or.inl ⟨hbad, ⟨fun _ => hsized, hfit⟩, hrest⟩
      · exact Or.inr (Or.inl ⟨fun h => hunfit h.2, hrest⟩)
      · exact Or.inr (Or.inr ⟨hall, List.forall_mem_cons.mpr ⟨hsized, hfit⟩, hrest⟩)

theorem loadLoop_start (image : Image) (ps : List ProgramHeader) :
    (¬Accepts image ps ∧ BuffersFit image ps ∧
      ∃ e st', ps.forM (loadPhdr b image) ⟨[], MemoryMap.new⟩ = (.err e, st')) ∨
    (¬BuffersFit image ps ∧
      ∃ f st', ps.forM (loadPhdr b image) ⟨[], MemoryMap.new⟩ = (.fault f, st')) ∨
    (Accepts image ps ∧ BuffersFit image ps ∧
      ∃ st', ps.forM (loadPhdr b image) ⟨[], MemoryMap.new⟩ = (.ok (), st') ∧
        LoadInv image ps st') := by
  have hnil : Accepts image [] := ⟨by simp, List.Pairwise.nil⟩
  rcases loadLoop_cases b ps hnil (loadInv_nil image) with
    ⟨hbad, hfit, hrun⟩ | ⟨hunfit, hrun⟩ | ⟨hacc, hfit, hrun⟩
  · exact Or.inl ⟨hbad, hfit, hrun⟩
  · exact Or.inr (Or.inl ⟨hunfit, hrun⟩)
  · exact Or.inr (Or.inr ⟨hacc, buffersFit_of_sized image hfit, hrun⟩)

end Loop

end WinVpwn.Elf
