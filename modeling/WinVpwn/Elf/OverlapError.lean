import WinVpwn.Elf.LoadElf

/-!
# What an overlap error names

The loop refuses a header that meets an earlier one, and then looks for an earlier
header that holds its start. Where the earlier one begins inside the new range there
is none, and the error names the address 0.
-/

namespace WinVpwn.Elf
open Rust Lib WinVpwn.Memory

/-- The loop over `ps` gets to `p`, after the headers `pre`, and stops there because `p`
meets one of them. -/
structure StopsAt (image : Image) (ps pre : List ProgramHeader) (p : ProgramHeader) : Prop where
  split : pre ++ [p] <+: ps
  accepts : Accepts image pre
  sized : ∀ q ∈ pre, q.Sized
  guest : p.pVaddr.toNat + p.pMemsz.toNat < 2 ^ 64
  meets : ∃ q ∈ pre, ¬Disjoint q.range p.range

theorem not_forall_disjoint {ps : List ProgramHeader} {p : ProgramHeader} :
    (¬∀ q ∈ ps, Disjoint q.range p.range) ↔ ∃ q ∈ ps, ¬Disjoint q.range p.range := by
  push Not
  exact Iff.rfl

section Loop
variable (b : Build) {image : Image}

theorem stopsAt_of_loop (ps : List ProgramHeader) {pre : List ProgramHeader} {st st' : LoadState}
    {vaddr other : U64} (hacc : Accepts image pre) (hsized : ∀ q ∈ pre, q.Sized)
    (hinv : LoadInv image pre st)
    (h : ps.forM (loadPhdr b image) st = (.err (.segmentOverlap vaddr other), st')) :
    ∃ mid p, StopsAt image (pre ++ ps) mid p ∧ p.pVaddr = vaddr ∧ Blames mid vaddr other := by
  induction ps generalizing pre st with
  | nil => cases h
  | cons p ps ih =>
    rw [Act.forM_cons_apply] at h
    rcases loadPhdr_outcomes b hinv p with
      ⟨⟨hguest, hmeet⟩, other', hblames, hrun⟩ | ⟨-, -, e, t, he, hrun⟩ | ⟨-, -, f, t, hrun⟩ |
        ⟨hin, hp, t, hrun, hinv'⟩
    · rw [Act.bind_of_err hrun] at h
      cases h
      refine ⟨pre, p, ⟨?_, hacc, hsized, hguest, not_forall_disjoint.mp hmeet⟩, rfl, hblames⟩
      exact ⟨ps, by simp⟩
    · rw [Act.bind_of_err hrun] at h
      cases h
      exact absurd trivial he
    · rw [Act.bind_of_fault hrun] at h
      cases h
    · rw [Act.bind_of_ok hrun] at h
      have hsized' : ∀ q ∈ pre ++ [p], q.Sized := by
        intro q hq
        rcases List.mem_append.mp hq with hq | hq
        · exact hsized q hq
        · exact List.mem_singleton.mp hq ▸ hp
      have hrest := ih ((accepts_snoc ..).mpr ⟨hacc, hin⟩) hsized' hinv' h
      rwa [List.append_assoc] at hrest

theorem loop_of_stopsAt {ps pre : List ProgramHeader} {p : ProgramHeader}
    (h : StopsAt image ps pre p) : ∃ other st', Blames pre p.pVaddr other ∧
      ps.forM (loadPhdr b image) ⟨[], MemoryMap.new⟩
        = (.err (.segmentOverlap p.pVaddr other), st') := by
  obtain ⟨post, rfl⟩ := h.split
  rw [List.append_assoc, Act.forM_append_apply]
  rcases loadLoop_start b image pre with
    ⟨hacc, -⟩ | ⟨hfit, -⟩ | ⟨-, -, st, hrun, hinv⟩
  · exact absurd h.accepts hacc
  · exact absurd (buffersFit_of_sized image h.sized) hfit
  · have hmeet := not_forall_disjoint.mpr h.meets
    rw [Act.bind_of_ok hrun, List.singleton_append, Act.forM_cons_apply]
    rcases loadPhdr_outcomes b hinv p with
      ⟨-, other, hblames, hstop⟩ | ⟨hno, -⟩ | ⟨⟨-, hdisj⟩, -⟩ | ⟨⟨-, hdisj⟩, -⟩
    · exact ⟨other, st, hblames, Act.bind_of_err hstop⟩
    · exact absurd ⟨h.guest, hmeet⟩ hno
    · exact absurd hdisj hmeet
    · exact absurd hdisj hmeet

end Loop

section Load
variable (b : Build) {parse : Image → Except String ParsedElf} {image : Image}

theorem stopsAt_of_loadElf {vaddr other : U64}
    (h : loadElf b parse image = .err (.segmentOverlap vaddr other)) :
    ∃ elf pre p, parse image = .ok elf ∧ HeaderOk image elf ∧ StopsAt image elf.loads pre p ∧
      p.pVaddr = vaddr ∧ Blames pre vaddr other := by
  cases hp : parse image with
  | error e =>
    obtain ⟨e', he, hrun⟩ := loadElf_of_parse_error b hp
    rw [hrun] at h
    cases h
    exact absurd trivial he
  | ok elf =>
    rcases loadElf_header b hp with ⟨-, e, he, hrun⟩ | ⟨hok, hrun⟩
    · rw [hrun] at h
      cases h
      exact absurd trivial he
    · rw [hrun] at h
      rcases hloop : elf.loads.forM (loadPhdr b image) ⟨[], MemoryMap.new⟩ with ⟨out, st⟩
      simp only [hloop] at h
      cases out with
      | ok u =>
        simp only [Outcome.ok_bind, Outcome.bailIf] at h
        split at h
        · cases h
        · cases h
      | err e =>
        cases h
        have hnil : Accepts image [] := ⟨by simp, List.Pairwise.nil⟩
        obtain ⟨pre, p, hstop, hvaddr, hblames⟩ :=
          stopsAt_of_loop b elf.loads hnil (by simp) (loadInv_nil image) hloop
        exact ⟨elf, pre, p, rfl, hok, hstop, hvaddr, hblames⟩
      | fault f => cases h

theorem loadElf_of_stopsAt {elf : ParsedElf} {pre : List ProgramHeader} {p : ProgramHeader}
    (hp : parse image = .ok elf) (hok : HeaderOk image elf)
    (h : StopsAt image elf.loads pre p) : ∃ other, Blames pre p.pVaddr other ∧
      loadElf b parse image = .err (.segmentOverlap p.pVaddr other) := by
  obtain ⟨other, st', hblames, hloop⟩ := loop_of_stopsAt b h
  refine ⟨other, hblames, ?_⟩
  rcases loadElf_header b hp with ⟨hbad, -⟩ | ⟨-, hrun⟩
  · exact absurd hok hbad
  · rw [hrun]
    simp only [hloop, Outcome.err_bind]

end Load

/-! ### The header named -/

/-- Among the headers `ps` one at `other` comes before one at `vaddr`, and the two meet. -/
def Overlapping (ps : List ProgramHeader) (vaddr other : U64) : Prop :=
  ∃ pre p q, pre ++ [p] <+: ps ∧ q ∈ pre ∧ p.pVaddr = vaddr ∧ q.pVaddr = other
    ∧ ¬Disjoint q.range p.range

/-- An overlap error names two headers of the image that meet, the second one first. -/
def NamesCulprit (b : Build) (parse : Image → Except String ParsedElf) (image : Image) : Prop :=
  ∀ vaddr other, loadElf b parse image = .err (.segmentOverlap vaddr other) →
    ∃ elf, parse image = .ok elf ∧ Overlapping elf.loads vaddr other

/-- The address 0 is right by chance: a header there, reaching over `vaddr`, comes before
a non-empty header at `vaddr`. -/
def ZeroByChance (ps : List ProgramHeader) (vaddr : U64) : Prop :=
  ∃ pre p q, pre ++ [p] <+: ps ∧ q ∈ pre ∧ q.pVaddr = 0 ∧ vaddr.toNat < q.pMemsz.toNat
    ∧ p.pVaddr = vaddr ∧ 0 < p.pMemsz.toNat

theorem overlapping_zero_iff (ps : List ProgramHeader) (vaddr : U64) :
    Overlapping ps vaddr 0 ↔ ZeroByChance ps vaddr := by
  constructor
  · intro h
    obtain ⟨pre, p, q, hsplit, hq, rfl, hzero, hmeet⟩ := h
    obtain ⟨a, haq, hap⟩ := Set.not_disjoint_iff.mp hmeet
    have hbase : q.pVaddr.toNat = 0 := by rw [hzero]; rfl
    obtain ⟨-, haq⟩ := haq
    obtain ⟨hpa, hap⟩ := hap
    exact ⟨pre, p, q, hsplit, hq, hzero, by omega, rfl, by omega⟩
  · intro h
    obtain ⟨pre, p, q, hsplit, hq, hzero, hreach, rfl, hpos⟩ := h
    have hbase : q.pVaddr.toNat = 0 := by rw [hzero]; rfl
    refine ⟨pre, p, q, hsplit, hq, rfl, hzero, ?_⟩
    refine Set.not_disjoint_iff.mpr ⟨p.pVaddr.toNat, ⟨?_, ?_⟩, ⟨?_, ?_⟩⟩ <;> omega

theorem StopsAt.overlapping {image : Image} {ps pre : List ProgramHeader} {p q : ProgramHeader}
    (h : StopsAt image ps pre p) (hq : q ∈ pre) (hin : p.pVaddr.toNat ∈ q.range) :
    Overlapping ps p.pVaddr q.pVaddr := by
  obtain ⟨r, -, hmeet⟩ := h.meets
  obtain ⟨a, -, ha⟩ := Set.not_disjoint_iff.mp hmeet
  have hstart : p.pVaddr.toNat ∈ p.range := ⟨le_rfl, ha.1.trans_lt ha.2⟩
  exact ⟨pre, p, q, h.split, hq, rfl, rfl, Set.not_disjoint_iff.mpr ⟨_, hin, hstart⟩⟩

/-- An overlap error names a real culprit exactly when the header refused starts inside an
earlier one, or 0 is right by chance. -/
theorem namesCulprit_iff (b : Build) (parse : Image → Except String ParsedElf) (image : Image) :
    NamesCulprit b parse image ↔
      ∀ elf pre p, parse image = .ok elf → HeaderOk image elf → StopsAt image elf.loads pre p →
        (∃ q ∈ pre, p.pVaddr.toNat ∈ q.range) ∨ ZeroByChance elf.loads p.pVaddr := by
  constructor
  · intro h elf pre p hp hok hstop
    obtain ⟨other, hblames, hrun⟩ := loadElf_of_stopsAt b hp hok hstop
    rcases hblames with ⟨q, hq, hin, -⟩ | ⟨-, rfl⟩
    · exact .inl ⟨q, hq, hin⟩
    · obtain ⟨elf', hp', hover⟩ := h _ _ hrun
      obtain rfl := Except.ok.inj (hp.symm.trans hp')
      exact .inr ((overlapping_zero_iff ..).mp hover)
  · intro h vaddr other hrun
    obtain ⟨elf, pre, p, hp, hok, hstop, rfl, hblames⟩ := stopsAt_of_loadElf b hrun
    refine ⟨elf, hp, ?_⟩
    rcases hblames with ⟨q, hq, hin, rfl⟩ | ⟨hnone, rfl⟩
    · exact hstop.overlapping hq hin
    · rcases h elf pre p hp hok hstop with ⟨q, hq, hin⟩ | hchance
      · exact absurd hin (hnone q hq)
      · exact (overlapping_zero_iff ..).mpr hchance

def fromBelow : Exec64 where
  littleEndian := true
  entry := 0x2000
  programHeaders := [⟨PT_LOAD, 5, 0xb0, 0x2000, 2, 0x1000, 0x1000⟩,
    ⟨PT_LOAD, 6, 0, 0x1000, 0, 0x2000, 0x1000⟩]
  body := [0xeb, 0xfe]

def fromBelowImage : Image := ⟨fromBelow.bytes, by decide +kernel⟩

/- The error names 0, where the image has no header. -/
theorem fromBelow_names_zero :
    loadElf .debug (fun _ => .ok fromBelow.parsed) fromBelowImage
        = .err (.segmentOverlap 0x1000 0)
      ∧ ¬NamesCulprit .debug (fun _ => .ok fromBelow.parsed) fromBelowImage := by
  have hrun : loadElf .debug (fun _ => .ok fromBelow.parsed) fromBelowImage
      = .err (.segmentOverlap 0x1000 0) := by decide +kernel
  refine ⟨hrun, ?_⟩
  intro h
  obtain ⟨elf, hp, pre, p, q, hsplit, hq, -, hzero, -⟩ := h _ _ hrun
  cases hp
  have hnone : ∀ q ∈ fromBelow.parsed.loads, q.pVaddr ≠ 0 := by decide
  exact hnone q (hsplit.subset (List.mem_append_left _ hq)) hzero

end WinVpwn.Elf
