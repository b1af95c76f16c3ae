import Mathlib.Data.List.Pairwise
import WinVpwn.Elf.OverlapError

/-!
# Which error a refused image gets

The checks of `load_elf` come one after the other, and those on the loadable headers
header by header: an image is refused with the error of the first check it fails, text
and values included.
-/

namespace WinVpwn.Elf
open Rust Lib WinVpwn.Memory

/-- The check that stops the loop at `p`, after the headers `pre`, and its error. -/
inductive Refused (image : Image) (pre : List ProgramHeader) (p : ProgramHeader) : ElfError → Prop
  | wraps (hwrap : 2 ^ 64 ≤ p.pVaddr.toNat + p.pMemsz.toNat) :
    Refused image pre p (.badPhdr "PT_LOAD vaddr+memsz overflows")
  | meets (other : U64) (hguest : p.pVaddr.toNat + p.pMemsz.toNat < 2 ^ 64)
    (hmeet : ∃ q ∈ pre, ¬Disjoint q.range p.range) (hblames : Blames pre p.pVaddr other) :
    Refused image pre p (.segmentOverlap p.pVaddr other)
  | fileWraps (hguest : p.pVaddr.toNat + p.pMemsz.toNat < 2 ^ 64)
    (hclear : ∀ q ∈ pre, Disjoint q.range p.range)
    (hwrap : 2 ^ 64 ≤ p.pOffset.toNat + p.pFilesz.toNat) :
    Refused image pre p (.truncated "PT_LOAD offset+filesz overflows")
  | short (hguest : p.pVaddr.toNat + p.pMemsz.toNat < 2 ^ 64)
    (hclear : ∀ q ∈ pre, Disjoint q.range p.range)
    (hend : p.pOffset.toNat + p.pFilesz.toNat < 2 ^ 64)
    (hshort : image.bytes.length < p.pOffset.toNat + p.pFilesz.toNat) :
    Refused image pre p (.truncated ("PT_LOAD file range " ++ hex p.pOffset.toNat ++ ".." ++
      hex (p.pOffset.toNat + p.pFilesz.toNat) ++ " exceeds image size " ++
      hex image.bytes.length))

/-- The check of `load_elf` that an image fails, and its error. -/
inductive Rejected (parse : Image → Except String ParsedElf) (image : Image) : ElfError → Prop
  | magic (hmagic : ¬elfMagic <+: image.bytes) : Rejected parse image .notElf
  | undecoded (msg : String) (hmagic : elfMagic <+: image.bytes) (hparse : parse image = .error msg) :
    Rejected parse image (.badPhdr msg)
  | format (elf : ParsedElf) (hmagic : elfMagic <+: image.bytes) (hparse : parse image = .ok elf)
    (h32 : elf.is64 = false) :
    Rejected parse image (.unsupportedFormat "32-bit ELF (stage 1 is x86_64 only)")
  | machine (elf : ParsedElf) (hmagic : elfMagic <+: image.bytes) (hparse : parse image = .ok elf)
    (h64 : elf.is64 = true) (hmachine : elf.eMachine ≠ EM_X86_64) :
    Rejected parse image .unsupportedMachine
  | type (elf : ParsedElf) (hmagic : elfMagic <+: image.bytes) (hparse : parse image = .ok elf)
    (h64 : elf.is64 = true) (hmachine : elf.eMachine = EM_X86_64) (htype : elf.eType ≠ ET_EXEC) :
    Rejected parse image (.unsupportedType elf.eType)
  | header (elf : ParsedElf) (pre : List ProgramHeader) (p : ProgramHeader)
    (post : List ProgramHeader) (e : ElfError) (hparse : parse image = .ok elf)
    (hok : HeaderOk image elf) (hsplit : elf.loads = pre ++ p :: post)
    (hacc : Accepts image pre) (hsized : ∀ q ∈ pre, q.Sized) (hrefused : Refused image pre p e) :
    Rejected parse image e
  | nothing (elf : ParsedElf) (hparse : parse image = .ok elf) (hok : HeaderOk image elf)
    (hnone : elf.loads = []) : Rejected parse image (.badPhdr "no PT_LOAD segments")

/-! ### One header -/

section Header
variable {image : Image} {pre : List ProgramHeader} {p : ProgramHeader}

theorem Refused.not_inOrder {e : ElfError} (h : Refused image pre p e) :
    ¬(p.InBounds image ∧ ∀ q ∈ pre, Disjoint q.range p.range) := by
  intro hin
  obtain ⟨hbounds, hclear⟩ := hin
  have hguest := hbounds.guest
  have hfile := hbounds.file
  have hlen : image.bytes.length < 2 ^ 63 := Nat.lt_of_le_pred (by norm_num) image.length_le
  cases h with
  | wraps hwrap => omega
  | meets other _ hmeet _ =>
    obtain ⟨q, hq, hmeet⟩ := hmeet
    exact hmeet (hclear q hq)
  | fileWraps _ _ hwrap => omega
  | short _ _ _ hshort => omega

theorem Blames.unique (hacc : Accepts image pre) {vaddr other other' : U64}
    (h : Blames pre vaddr other) (h' : Blames pre vaddr other') : other = other' := by
  rcases h with ⟨q, hq, hin, rfl⟩ | ⟨hnone, rfl⟩ <;> rcases h' with ⟨r, hr, hin', rfl⟩ | ⟨hnone', rfl⟩
  · by_contra hne
    have hsymm : Std.Symm fun q r : ProgramHeader => Disjoint q.range r.range :=
      ⟨fun _ _ h => h.symm⟩
    have hdisj := hacc.disjoint.forall hq hr fun heq => hne (heq ▸ rfl)
    exact Set.disjoint_left.mp hdisj hin hin'
  · exact absurd hin (hnone' q hq)
  · exact absurd hin' (hnone r hr)
  · rfl

theorem Refused.unique (hacc : Accepts image pre) {e e' : ElfError} (h : Refused image pre p e)
    (h' : Refused image pre p e') : e = e' := by
  have hclash : (∃ q ∈ pre, ¬Disjoint q.range p.range) → ¬∀ q ∈ pre, Disjoint q.range p.range :=
    not_forall_disjoint.mpr
  cases h with
  | wraps hwrap =>
    cases h' with
    | wraps => rfl
    | meets _ hguest => omega
    | fileWraps hguest => omega
    | short hguest => omega
  | meets other hguest hmeet hblames =>
    cases h' with
    | wraps hwrap => omega
    | meets other' _ _ hblames' => rw [hblames.unique hacc hblames']
    | fileWraps _ hclear => exact absurd hclear (hclash hmeet)
    | short _ hclear => exact absurd hclear (hclash hmeet)
  | fileWraps hguest hclear hwrap =>
    cases h' with
    | wraps hwrap' => omega
    | meets _ _ hmeet => exact absurd hclear (hclash hmeet)
    | fileWraps => rfl
    | short _ _ hend => omega
  | short hguest hclear hend hshort =>
    cases h' with
    | wraps hwrap => omega
    | meets _ _ hmeet => exact absurd hclear (hclash hmeet)
    | fileWraps _ _ hwrap => omega
    | short => rfl

theorem loadFile_refused (image : Image) (st : LoadState) (hguest : p.pVaddr.toNat + p.pMemsz.toNat < 2 ^ 64)
    (hclear : ∀ q ∈ pre, Disjoint q.range p.range)
    (hfile : ¬p.pOffset.toNat + p.pFilesz.toNat ≤ image.bytes.length) :
    ∃ e, Refused image pre p e ∧ loadFile image p st = (.err e, st) := by
  unfold loadFile
  simp only [Act.bind_apply, Act.lift_apply, checkedAdd]
  by_cases hsum : p.pOffset.toNat + p.pFilesz.toNat < 2 ^ 64
  · have hend := toNat_add_of_lt p.pOffset p.pFilesz hsum
    refine ⟨_, .short hguest hclear hsum (by omega), ?_⟩
    simp only [if_pos hsum, Outcome.okOr, Outcome.bailIf]
    rw [if_pos (by omega), hend]
  · refine ⟨_, .fileWraps hguest hclear (by omega), ?_⟩
    rw [if_neg hsum]
    rfl

theorem loadPhdr_exact (b : Build) {st : LoadState} (hinv : LoadInv image pre st) :
    (∃ e st', Refused image pre p e ∧ loadPhdr b image p st = (.err e, st')) ∨
    ((p.InBounds image ∧ ∀ q ∈ pre, Disjoint q.range p.range) ∧ ¬p.Sized ∧
      ∃ f st', loadPhdr b image p st = (.fault f, st')) ∨
    ((p.InBounds image ∧ ∀ q ∈ pre, Disjoint q.range p.range) ∧ p.Sized ∧
      ∃ st', loadPhdr b image p st = (.ok (), st') ∧ LoadInv image (pre ++ [p]) st') := by
  by_cases hin : p.InBounds image ∧ ∀ q ∈ pre, Disjoint q.range p.range
  · rcases loadPhdr_cases b hinv p with ⟨hbad, -⟩ | hfault | hok
    · exact absurd hin hbad
    · exact .inr (.inl hfault)
    · exact .inr (.inr hok)
  refine .inl ?_
  by_cases hguest : p.pVaddr.toNat + p.pMemsz.toNat < 2 ^ 64
  swap
  · exact ⟨_, st, .wraps (by omega), loadPhdr_wraps b image st hguest⟩
  rw [loadPhdr_eq b image st hguest]
  rcases claim_cases b hinv p hguest with ⟨hclear, map, -, -, hrun⟩ | ⟨hmeet, other, hblames, hrun⟩
  · have hfile : ¬p.pOffset.toNat + p.pFilesz.toNat ≤ image.bytes.length :=
      fun h => hin ⟨⟨hguest, h⟩, hclear⟩
    obtain ⟨e, hrefused, hload⟩ :=
      loadFile_refused image { st with map := map } hguest hclear hfile
    exact ⟨e, _, hrefused, (Act.bind_of_ok hrun).trans hload⟩
  · exact ⟨_, st, .meets other hguest (not_forall_disjoint.mp hmeet) hblames, Act.bind_of_err hrun⟩

end Header

/-! ### The loop -/

section Loop
variable (b : Build) {image : Image}

/-- The first of the headers `ps` after `done` that is refused is so with `e`. -/
def RefusedIn (image : Image) (done ps : List ProgramHeader) (e : ElfError) : Prop :=
  ∃ pre p post, ps = pre ++ p :: post ∧ Accepts image (done ++ pre) ∧ (∀ q ∈ pre, q.Sized) ∧
    Refused image (done ++ pre) p e

theorem not_refusedIn_nil (done : List ProgramHeader) (e : ElfError) :
    ¬RefusedIn image done [] e := by
  intro h
  obtain ⟨pre, p, post, hsplit, -⟩ := h
  cases pre <;> cases hsplit

theorem refusedIn_cons (done : List ProgramHeader) (p : ProgramHeader) (ps : List ProgramHeader)
    (e : ElfError) : RefusedIn image done (p :: ps) e ↔
      (Accepts image done ∧ Refused image done p e) ∨
        p.Sized ∧ RefusedIn image (done ++ [p]) ps e := by
  constructor
  · intro h
    obtain ⟨pre, q, post, hsplit, hacc, hsized, hrefused⟩ := h
    cases pre with
    | nil =>
      cases hsplit
      rw [List.append_nil] at hacc hrefused
      exact .inl ⟨hacc, hrefused⟩
    | cons r pre =>
      cases hsplit
      rw [List.append_cons] at hacc hrefused
      rw [List.forall_mem_cons] at hsized
      exact .inr ⟨hsized.1, pre, q, post, rfl, hacc, hsized.2, hrefused⟩
  · intro h
    rcases h with ⟨hacc, hrefused⟩ | ⟨hsized, pre, q, post, rfl, hacc, hpre, hrefused⟩
    · rw [← List.append_nil done] at hacc hrefused
      exact ⟨[], p, ps, rfl, hacc, List.forall_mem_nil _, hrefused⟩
    · rw [← List.append_cons] at hacc hrefused
      exact ⟨p :: pre, q, post, rfl, hacc, List.forall_mem_cons.mpr ⟨hsized, hpre⟩, hrefused⟩

theorem loadLoop_err_iff (ps : List ProgramHeader) {done : List ProgramHeader} {st : LoadState}
    (hacc : Accepts image done) (hinv : LoadInv image done st) (e : ElfError) :
    (∃ st', ps.forM (loadPhdr b image) st = (.err e, st')) ↔ RefusedIn image done ps e := by
  induction ps generalizing done st with
  | nil =>
    refine iff_of_false ?_ (not_refusedIn_nil done e)
    intro h
    obtain ⟨st', h⟩ := h
    cases h
  | cons p ps ih =>
    rw [Act.forM_cons_apply, refusedIn_cons]
    rcases loadPhdr_exact (p := p) b hinv with
      ⟨e₁, st₁, hrefused, hrun⟩ | ⟨hin, hsized, f, st₁, hrun⟩ | ⟨hin, hsized, st₁, hrun, hinv'⟩
    · rw [Act.bind_of_err hrun]
      constructor
      · intro h
        obtain ⟨st', h⟩ := h
        cases h
        exact .inl ⟨hacc, hrefused⟩
      · intro h
        rcases h with ⟨-, hrefused'⟩ | ⟨-, pre, q, post, -, hacc', -⟩
        · rw [hrefused.unique hacc hrefused']
          exact ⟨st₁, rfl⟩
        · have hin := ((accepts_snoc ..).mp (accepts_of_append pre hacc')).2
          exact absurd hin hrefused.not_inOrder
    · rw [Act.bind_of_fault hrun]
      constructor
      · intro h
        obtain ⟨st', h⟩ := h
        cases h
      · intro h
        rcases h with ⟨-, hrefused⟩ | ⟨hsized', -⟩
        · exact absurd hin hrefused.not_inOrder
        · exact absurd hsized' hsized
    · rw [Act.bind_of_ok hrun, ih ((accepts_snoc ..).mpr ⟨hacc, hin⟩) hinv']
      constructor
      · exact fun h => .inr ⟨hsized, h⟩
      · intro h
        rcases h with ⟨-, hrefused⟩ | ⟨-, h⟩
        · exact absurd hin hrefused.not_inOrder
        · exact h

end Loop

/-! ### The image -/

section Load
variable (b : Build) {parse : Image → Except String ParsedElf} {image : Image}

theorem loadElf_headers {elf : ParsedElf} (hparse : parse image = .ok elf)
    (hok : HeaderOk image elf) (e : ElfError) :
    loadElf b parse image = .err e ↔
      RefusedIn image [] elf.loads e ∨
        elf.loads = [] ∧ e = .badPhdr "no PT_LOAD segments" := by
  have hnil : Accepts image [] := ⟨by simp, List.Pairwise.nil⟩
  have hloop := loadLoop_err_iff b elf.loads hnil (loadInv_nil image) e
  rcases loadElf_header b hparse with ⟨hbad, -⟩ | ⟨-, hrun⟩
  · exact absurd hok hbad
  rw [hrun]
  by_cases hnone : elf.loads = []
  · rw [hnone, or_iff_right (not_refusedIn_nil [] e)]
    show Outcome.err _ = .err e ↔ _
    rw [Outcome.err.injEq, eq_comm, and_iff_right rfl]
  · rw [or_iff_left fun h => hnone h.1, ← hloop]
    rcases loadLoop_start b image elf.loads with
      ⟨-, -, e', st, hend⟩ | ⟨-, f, st, hend⟩ | ⟨-, -, st, hend, hinv⟩
    · simp [hend]
    · simp [hend]
    · simp [hend, hinv.segments, hnone, Outcome.bailIf]

theorem loadElf_of_rejected {e : ElfError} (h : Rejected parse image e) :
    loadElf b parse image = .err e := by
  cases h with
  | magic hmagic =>
    unfold loadElf Outcome.bailIf
    rw [if_pos ((bad_magic_iff image).mpr hmagic)]
    rfl
  | undecoded msg hmagic hparse =>
    unfold loadElf
    rw [hparse]
    simp [Outcome.bailIf, bad_magic_iff, hmagic]
  | format elf hmagic hparse h32 =>
    unfold loadElf
    rw [hparse]
    simp [Outcome.bailIf, bad_magic_iff, hmagic, h32]
  | machine elf hmagic hparse h64 hmachine =>
    unfold loadElf
    rw [hparse]
    simp [Outcome.bailIf, bad_magic_iff, hmagic, h64, hmachine]
  | type elf hmagic hparse h64 hmachine htype =>
    unfold loadElf
    rw [hparse]
    simp [Outcome.bailIf, bad_magic_iff, hmagic, h64, hmachine, htype]
  | header elf pre p post _ hparse hok hsplit hacc hsized hrefused =>
    exact (loadElf_headers b hparse hok e).mpr (.inl ⟨pre, p, post, hsplit, hacc, hsized, hrefused⟩)
  | nothing elf hparse hok hnone =>
    exact (loadElf_headers b hparse hok _).mpr (.inr ⟨hnone, rfl⟩)

theorem rejected_of_loadElf {e : ElfError} (h : loadElf b parse image = .err e) :
    Rejected parse image e := by
  have hfound : ∀ {e'}, Rejected parse image e' → Rejected parse image e := by
    intro e' h'
    have hrun := loadElf_of_rejected b h'
    rw [h] at hrun
    cases hrun
    exact h'
  by_cases hmagic : elfMagic <+: image.bytes
  swap
  · exact hfound (.magic hmagic)
  cases hparse : parse image with
  | error msg => exact hfound (.undecoded msg hmagic hparse)
  | ok elf =>
    by_cases h64 : elf.is64 = true
    swap
    · exact hfound (.format elf hmagic hparse (by simpa using h64))
    by_cases hmachine : elf.eMachine = EM_X86_64
    swap
    · exact hfound (.machine elf hmagic hparse h64 hmachine)
    by_cases htype : elf.eType = ET_EXEC
    swap
    · exact hfound (.type elf hmagic hparse h64 hmachine htype)
    have hok : HeaderOk image elf := ⟨hmagic, h64, hmachine, htype⟩
    rcases (loadElf_headers b hparse hok e).mp h with
      ⟨pre, p, post, hsplit, hacc, hsized, hrefused⟩ | ⟨hnone, rfl⟩
    · exact .header elf pre p post e hparse hok hsplit hacc hsized hrefused
    · exact .nothing elf hparse hok hnone

/-- `load_elf` returns an error exactly when a check fails, and it is the error of the
first one that does: of the file header, then of the loadable headers in their order. -/
theorem loadElf_err_iff (b : Build) (parse : Image → Except String ParsedElf) (image : Image)
    (e : ElfError) : loadElf b parse image = .err e ↔ Rejected parse image e :=
  ⟨rejected_of_loadElf b, loadElf_of_rejected b⟩

end Load
end WinVpwn.Elf
