import WinVpwn.Elf.LoadLoop

/-!
# What `load_elf` accepts, loads and refuses

The header checks and the loop together: when the call returns at all, what an
accepted image yields, and how the accepted images compare with the documented
ones.
-/

namespace WinVpwn.Elf
open Rust Lib

/-- The checks that come before the loop. -/
structure HeaderOk (image : Image) (elf : ParsedElf) : Prop where
  magic : elfMagic <+: image.bytes
  is64 : elf.is64 = true
  machine : elf.eMachine = EM_X86_64
  type : elf.eType = ET_EXEC

theorem bad_magic_iff (image : Image) :
    (image.bytes.length < 4 ∨ image.bytes.take 4 ≠ elfMagic) ↔ ¬elfMagic <+: image.bytes := by
  rw [List.prefix_iff_eq_take]
  show _ ↔ ¬elfMagic = image.bytes.take 4
  constructor
  · rintro (hlen | hne) heq
    · have := congrArg List.length heq
      rw [List.length_take] at this
      change 4 = _ at this
      omega
    · exact hne heq.symm
  · exact fun hne => Or.inr fun heq => hne heq.symm

section Cases
variable (b : Build) {parse : Image → Except String ParsedElf} {image : Image} {elf : ParsedElf}

theorem loadElf_of_parse_error {e : String} (hp : parse image = .error e) :
    ∃ e', ¬e'.IsOverlap ∧ loadElf b parse image = .err e' := by
  unfold loadElf Outcome.bailIf
  split_ifs
  · exact ⟨_, id, rfl⟩
  · simp only [hp]
    exact ⟨_, id, rfl⟩

theorem loadElf_header (hp : parse image = .ok elf) :
    (¬HeaderOk image elf ∧ ∃ e, ¬e.IsOverlap ∧ loadElf b parse image = .err e) ∨
    (HeaderOk image elf ∧ loadElf b parse image = (do
      let loop := elf.loads.forM (loadPhdr b image) ⟨[], Memory.MemoryMap.new⟩
      loop.1
      Outcome.bailIf (loop.2.segments.isEmpty) (.badPhdr "no PT_LOAD segments")
      return ⟨elf.entry, loop.2.segments, false⟩)) := by
  unfold loadElf
  rw [hp]
  simp only [Outcome.bailIf, bad_magic_iff]
  by_cases hmagic : elfMagic <+: image.bytes
  swap
  · exact Or.inl ⟨fun h => hmagic h.magic, _, id, by rw [if_pos hmagic]; rfl⟩
  by_cases h64 : elf.is64 = true
  swap
  · refine Or.inl ⟨fun h => h64 h.is64,
      .unsupportedFormat "32-bit ELF (stage 1 is x86_64 only)", id, ?_⟩
    simp [hmagic, h64]
  by_cases hmachine : elf.eMachine = EM_X86_64
  swap
  · refine Or.inl ⟨fun h => hmachine h.machine, .unsupportedMachine, id, ?_⟩
    simp [hmagic, h64, hmachine]
  by_cases htype : elf.eType = ET_EXEC
  swap
  · refine Or.inl ⟨fun h => htype h.type, .unsupportedType elf.eType, id, ?_⟩
    simp [hmagic, h64, hmachine, htype]
  refine Or.inr ⟨⟨hmagic, h64, hmachine, htype⟩, ?_⟩
  have hpie : decide (ET_EXEC = ET_DYN) = false := by decide
  simp only [hmagic, h64, hmachine, htype, hpie, not_true_eq_false, ne_eq, if_false, reduceCtorEq,
    Outcome.ok_bind]

theorem loadElf_cases (hp : parse image = .ok elf) :
    (HeaderOk image elf ∧ ¬BuffersFit image elf.loads ∧ ∃ f, loadElf b parse image = .fault f) ∨
    ((HeaderOk image elf → BuffersFit image elf.loads) ∧
      ¬(HeaderOk image elf ∧ elf.loads ≠ [] ∧ Accepts image elf.loads) ∧
      ∃ e, loadElf b parse image = .err e) ∨
    ((HeaderOk image elf ∧ elf.loads ≠ [] ∧ Accepts image elf.loads) ∧
      (∀ p ∈ elf.loads, p.Sized) ∧
      loadElf b parse image = .ok ⟨elf.entry, elf.loads.map (·.segment image), false⟩) := by
  rcases loadElf_header b hp with ⟨hbad, e, -, hrun⟩ | ⟨hok, hrun⟩
  · exact Or.inr (Or.inl ⟨fun h => absurd h hbad, fun h => hbad h.1, e, hrun⟩)
  rw [hrun]
  rcases loadLoop_start b image elf.loads with
    ⟨hacc, hfit, e, st, hloop⟩ | ⟨hfit, f, st, hloop⟩ | ⟨hacc, hfit, st, hloop, hinv⟩
  · refine Or.inr (Or.inl ⟨fun _ => hfit, fun h => hacc h.2.2, e, ?_⟩)
    simp only [hloop, Outcome.err_bind]
  · refine Or.inl ⟨hok, hfit, f, ?_⟩
    simp only [hloop, Outcome.fault_bind]
  · simp only [hloop, Outcome.ok_bind, hinv.segments, List.isEmpty_iff, List.map_eq_nil_iff,
      Outcome.bailIf]
    by_cases hnil : elf.loads = []
    · refine Or.inr (Or.inl ⟨fun _ => hfit, fun h => h.2.1 hnil, ?_⟩)
      rw [if_pos hnil]
      exact ⟨_, rfl⟩
    · refine Or.inr (Or.inr ⟨⟨hok, hnil, hacc⟩, sized_of_accepts hfit hacc, ?_⟩)
      rw [if_neg hnil]
      rfl

theorem loadElf_eq_ok {out : LoadedElf} (h : loadElf b parse image = .ok out) :
    ∃ elf, parse image = .ok elf ∧ (HeaderOk image elf ∧ elf.loads ≠ [] ∧ Accepts image elf.loads) ∧
      (∀ p ∈ elf.loads, p.Sized) ∧ out = ⟨elf.entry, elf.loads.map (·.segment image), false⟩ := by
  cases hp : parse image with
  | error e =>
    obtain ⟨e', -, hrun⟩ := loadElf_of_parse_error b hp
    rw [hrun] at h
    cases h
  | ok elf =>
    rcases loadElf_cases b hp with ⟨-, -, f, hrun⟩ | ⟨-, -, e, hrun⟩ | ⟨hgood, hsized, hrun⟩
    · rw [hrun] at h
      cases h
    · rw [hrun] at h
      cases h
    · rw [hrun] at h
      cases h
      exact ⟨elf, rfl, hgood, hsized, rfl⟩

end Cases

/-! ### No panic -/

/-- A call returns exactly when every header the loop gets to has a buffer that
holds its file part. -/
theorem loadElf_returns_iff (b : Build) (parse : Image → Except String ParsedElf) (image : Image) :
    (loadElf b parse image).Returns ↔
      ∀ elf, parse image = .ok elf → HeaderOk image elf → BuffersFit image elf.loads := by
  cases hp : parse image with
  | error e =>
    obtain ⟨e', -, hrun⟩ := loadElf_of_parse_error b hp
    simp [hrun]
  | ok elf =>
    rcases loadElf_cases b hp with ⟨hok, hfit, f, hrun⟩ | ⟨hfit, -, e, hrun⟩ | ⟨-, hsized, hrun⟩
    · rw [hrun]
      refine ⟨fun h => absurd h (Outcome.not_returns_fault f), fun h => ?_⟩
      exact absurd (h elf rfl hok) hfit
    · rw [hrun]
      refine ⟨?_, fun _ => Outcome.returns_err e⟩
      rintro - _ ⟨⟩
      exact hfit
    · rw [hrun]
      refine ⟨?_, fun _ => Outcome.returns_ok _⟩
      rintro - _ ⟨⟩ -
      exact buffersFit_of_sized image hsized

/- A header with four file bytes and no memory for them. -/
def shrunk : Exec64 where
  littleEndian := true
  entry := 0x400078
  programHeaders := [⟨PT_LOAD, 5, 0x78, 0x400078, 4, 0, 0x1000⟩]
  body := [0x90, 0x90, 0xeb, 0xfe]

def shrunkImage : Image := ⟨shrunk.bytes, by decide +kernel⟩

theorem shrunk_panics :
    ¬(loadElf .release (fun _ => .ok shrunk.parsed) shrunkImage).Returns := by
  have hrun : loadElf .release (fun _ => .ok shrunk.parsed) shrunkImage =
      .fault .slice := by decide +kernel
  rw [hrun]
  exact Outcome.not_returns_fault _

/-! ### What is loaded -/

/-- The segment a header asks for, field by field and byte by byte. -/
structure LoadedFrom (image : Image) (p : ProgramHeader) (seg : Segment) : Prop where
  vaddr : seg.vaddr = p.pVaddr
  memsz : seg.memsz = p.pMemsz
  filesz : seg.filesz = p.pFilesz
  flags : seg.flags = p.pFlags
  align : seg.align = p.pAlign
  filesz_le : seg.filesz.toNat ≤ seg.memsz.toNat
  length : seg.data.length = seg.memsz.toNat
  file : ∀ i < seg.filesz.toNat, ∃ x,
    image.bytes[p.pOffset.toNat + i]? = some x ∧ seg.data[i]? = some x
  bss : ∀ i, seg.filesz.toNat ≤ i → i < seg.memsz.toNat → seg.data[i]? = some 0
  fileBytes : (seg.fileBytes : Outcome ElfError _) = .ok (seg.data.take seg.filesz.toNat)
  bounded : seg.vaddr.toNat + seg.memsz.toNat < 2 ^ 64

theorem segment_loadedFrom {image : Image} {p : ProgramHeader} (hin : p.InBounds image)
    (hsized : p.Sized) : LoadedFrom image p (p.segment image) := by
  have hfile : ((image.bytes.drop p.pOffset.toNat).take p.pFilesz.toNat).length =
      p.pFilesz.toNat := by
    have := hin.file
    rw [List.length_take, List.length_drop]
    omega
  have hlength : (p.segment image).data.length = p.pMemsz.toNat := by
    have := hsized.filesz
    simp only [ProgramHeader.segment, List.length_append, hfile, List.length_replicate]
    omega
  refine ⟨rfl, rfl, rfl, rfl, rfl, hsized.filesz, hlength, ?_, ?_, ?_, hin.guest⟩
  · intro i hi
    change i < p.pFilesz.toNat at hi
    have hrange : p.pOffset.toNat + i < image.bytes.length := by
      have := hin.file
      omega
    refine ⟨image.bytes[p.pOffset.toNat + i], List.getElem?_eq_getElem hrange, ?_⟩
    simp only [ProgramHeader.segment]
    rw [List.getElem?_append_left (by rw [hfile]; exact hi), List.getElem?_take_of_lt hi,
      List.getElem?_drop, List.getElem?_eq_getElem hrange]
  · intro i hlo hhi
    change p.pFilesz.toNat ≤ i at hlo
    change i < p.pMemsz.toNat at hhi
    simp only [ProgramHeader.segment]
    rw [List.getElem?_append_right (by rw [hfile]; exact hlo), hfile]
    exact List.getElem?_replicate_of_lt (by omega)
  · unfold Segment.fileBytes
    rw [slice_eq _ _ _ (Nat.zero_le _) (by rw [hlength]; exact hsized.filesz)]
    rfl

theorem loadElf_exact (b : Build) (parse : Image → Except String ParsedElf) (image : Image)
    (out : LoadedElf) (h : loadElf b parse image = .ok out) :
    ∃ elf, parse image = .ok elf ∧ out.entry = elf.entry ∧
      List.Forall₂ (LoadedFrom image) elf.loads out.segments ∧
      out.segments.Pairwise fun s t =>
        Disjoint (span s.vaddr.toNat s.memsz.toNat) (span t.vaddr.toNat t.memsz.toNat) := by
  obtain ⟨elf, hp, ⟨-, -, hacc⟩, hsized, rfl⟩ := loadElf_eq_ok b h
  refine ⟨elf, hp, rfl, ?_, ?_⟩
  · rw [List.forall₂_map_right_iff, List.forall₂_same]
    exact fun p hp => segment_loadedFrom (hacc.bounds p hp) (hsized p hp)
  · rw [List.pairwise_map]
    exact hacc.disjoint

def jumpSelf : Exec64 where
  littleEndian := true
  entry := 0x4000b0
  programHeaders := [⟨PT_LOAD, 5, 0xb0, 0x4000b0, 2, 4, 0x1000⟩, ⟨PT_LOAD, 6, 0, 0x4000b2, 0, 0, 1⟩]
  body := [0xeb, 0xfe]

def jumpSelfImage : Image := ⟨jumpSelf.bytes, by decide +kernel⟩

theorem jumpSelf_loaded : ∃ out,
    loadElf .debug (fun _ => .ok jumpSelf.parsed) jumpSelfImage = .ok out ∧
    ∃ elf, (fun _ => .ok jumpSelf.parsed : Image → Except String ParsedElf)
        jumpSelfImage = .ok elf ∧ out.entry = elf.entry ∧
      List.Forall₂ (LoadedFrom jumpSelfImage) elf.loads out.segments ∧
      out.segments.Pairwise fun s t =>
        Disjoint (span s.vaddr.toNat s.memsz.toNat) (span t.vaddr.toNat t.memsz.toNat) :=
  ⟨⟨0x4000b0, [⟨0x4000b0, 4, 2, [0xeb, 0xfe, 0, 0], 5, 0x1000⟩, ⟨0x4000b2, 0, 0, [], 6, 1⟩], false⟩,
    by decide +kernel,
    loadElf_exact .debug (fun _ => .ok jumpSelf.parsed) jumpSelfImage _ (by decide +kernel)⟩

/-! ### Which images are accepted -/

/-- The documented conditions (docs/architecture.md:23-25, loader.rs:56). -/
structure Documented (image : Image) (elf : ParsedElf) : Prop where
  header : HeaderOk image elf
  littleEndian : elf.littleEndian = true
  loadable : elf.loads ≠ []
  accepts : Accepts image elf.loads

/-- The loader accepts exactly the documented images and returns an error for
the others, unless the byte order is all that is wrong. -/
theorem loadElf_documented_iff (b : Build) (parse : Image → Except String ParsedElf)
    (image : Image) (elf : ParsedElf) (hp : parse image = .ok elf)
    (hsized : ∀ p ∈ elf.loads, p.Sized) :
    (((∃ out, loadElf b parse image = .ok out) ↔ Documented image elf) ∧
      (¬Documented image elf → ∃ e, loadElf b parse image = .err e)) ↔
    (elf.littleEndian = true ∨
      ¬(HeaderOk image elf ∧ elf.loads ≠ [] ∧ Accepts image elf.loads)) := by
  rcases loadElf_cases b hp with ⟨-, hfit, -⟩ | ⟨-, hbad, e, hrun⟩ | ⟨hgood, -, hrun⟩
  · exact absurd (buffersFit_of_sized image hsized) hfit
  · have hdoc : ¬Documented image elf := fun h => hbad ⟨h.header, h.loadable, h.accepts⟩
    simp [hrun, hdoc, hbad]
  · have hdoc : Documented image elf ↔ elf.littleEndian = true :=
      ⟨fun h => h.littleEndian, fun h => ⟨hgood.1, h, hgood.2.1, hgood.2.2⟩⟩
    simp [hrun, hdoc, hgood]

theorem jumpSelf_documented :
    ((∃ out, loadElf .debug (fun _ => .ok jumpSelf.parsed) jumpSelfImage = .ok out) ↔
      Documented jumpSelfImage jumpSelf.parsed) ∧
    (¬Documented jumpSelfImage jumpSelf.parsed →
      ∃ e, loadElf .debug (fun _ => .ok jumpSelf.parsed) jumpSelfImage = .err e) :=
  (loadElf_documented_iff .debug _ _ jumpSelf.parsed rfl (by
    intro p hp
    have hall : ∀ q ∈ jumpSelf.parsed.loads,
        q.pFilesz.toNat ≤ q.pMemsz.toNat ∧ q.pMemsz.toNat ≤ isizeMax := by decide +kernel
    exact ⟨(hall p hp).1, (hall p hp).2⟩)).mpr (Or.inl rfl)

def bigEndian : Exec64 where
  littleEndian := false
  entry := 0x400078
  programHeaders := [⟨PT_LOAD, 5, 0x78, 0x400078, 2, 2, 0x1000⟩]
  body := [0xeb, 0xfe]

def bigEndianImage : Image := ⟨bigEndian.bytes, by decide +kernel⟩

theorem bigEndian_accepted :
    (∃ out, loadElf .release (fun _ => .ok bigEndian.parsed) bigEndianImage = .ok out) ∧
    (∀ p ∈ bigEndian.parsed.loads,
      p.pFilesz.toNat ≤ p.pMemsz.toNat ∧ p.pMemsz.toNat ≤ isizeMax) ∧
    ¬Documented bigEndianImage bigEndian.parsed :=
  ⟨⟨⟨0x400078, [⟨0x400078, 2, 2, [0xeb, 0xfe], 5, 0x1000⟩], false⟩, by decide +kernel⟩,
    by decide +kernel, fun h => absurd h.littleEndian (by decide)⟩

end WinVpwn.Elf
