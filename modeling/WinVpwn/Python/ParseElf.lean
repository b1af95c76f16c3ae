import WinVpwn.Python.Diagnosis

/-!
# `parse_elf` (python.rs:82)

An inspection goes through the loader a run goes through. What it reports decides
whether `run_elf` gets as far as the run, and describes what the guest then starts
with.
-/

namespace WinVpwn.Python
open Rust Lib WinVpwn.Elf WinVpwn.Cpu WinVpwn.Syscall WinVpwn.Trace WinVpwn.Vkernel

/-- A dict in the list `segments`. -/
structure SegmentInfo where
  vaddr : U64
  memsz : U64
  filesz : U64
  flags : U32
  align : U64
  deriving DecidableEq, Repr

/-- The dict `parse_elf` returns. -/
structure ElfInfo where
  entry : U64
  isPie : Bool
  segments : List SegmentInfo
  deriving DecidableEq, Repr

def segmentInfo (seg : Segment) : SegmentInfo :=
  ⟨seg.vaddr, seg.memsz, seg.filesz, seg.flags, seg.align⟩

/-- `parse_elf` (python.rs:82). -/
def parseElf (b : Build) (parse : Image → Except String ParsedElf) (image : Image) :
    Outcome PyErr ElfInfo := do
  let elf ← (loadElf b parse image).mapErr fun e => .valueError e.toString
  return ⟨elf.entry, elf.isPie, elf.segments.map segmentInfo⟩

namespace SegmentInfo

def lo (s : SegmentInfo) : ℕ := pageDown pageBytes s.vaddr.toNat
def hi (s : SegmentInfo) : ℕ := pageUp pageBytes (s.vaddr.toNat + s.memsz.toNat)

end SegmentInfo

namespace ElfInfo

/-- What an inspection has to show for the image to be run: segments of a page or
more, none sharing a page with another or with the stack, and in a debug build
none that ends in the last page of the address space. -/
def Loadable (b : Build) (info : ElfInfo) : Prop :=
  (∀ s ∈ info.segments, s.lo < s.hi) ∧
    (info.segments.Pairwise fun s t => s.hi ≤ t.lo ∨ t.hi ≤ s.lo) ∧
    (∀ s ∈ info.segments, s.hi ≤ STACK_BASE.toNat ∨ STACK_BASE.toNat + STACK_SIZE.toNat ≤ s.lo) ∧
    (b = .debug → ∀ s ∈ info.segments, s.vaddr.toNat + s.memsz.toNat + pageBytes < addressEnd)

instance (b : Build) (info : ElfInfo) : Decidable (info.Loadable b) :=
  inferInstanceAs (Decidable (_ ∧ _ ∧ _ ∧ _))

end ElfInfo

/-! ### Pages of the segments -/

theorem pages_disjoint_iff {s t : Segment} (hs : s.lo < s.hi) (ht : t.lo < t.hi) :
    Disjoint s.pages t.pages ↔ s.hi ≤ t.lo ∨ t.hi ≤ s.lo := by
  unfold Segment.pages
  rw [disjoint_span_iff]
  omega

theorem stack_disjoint_iff {s : Segment} (hs : s.lo < s.hi) : Disjoint s.pages stackRange ↔
    s.hi ≤ STACK_BASE.toNat ∨ STACK_BASE.toNat + STACK_SIZE.toNat ≤ s.lo := by
  have hsize : STACK_SIZE.toNat = 0x20000 := rfl
  unfold Segment.pages stackRange
  rw [disjoint_span_iff]
  omega

theorem not_overflows_iff {b : Build} {segs : List Segment} (hplaced : Placed segs) :
    ¬Overflows b segs ↔ ∀ seg ∈ segs, seg.Rounds b := by
  constructor
  · intro h seg hseg
    obtain ⟨pre, post, rfl⟩ := List.append_of_mem hseg
    by_contra hr
    exact h ⟨pre, seg, post, rfl, placed_of_append _ hplaced, hr⟩
  · intro h hover
    obtain ⟨pre, seg, post, rfl, -, hr⟩ := hover
    exact hr (h seg (List.mem_append_right _ (List.mem_cons_self ..)))

theorem loadable_iff (b : Build) (elf : LoadedElf) :
    ElfInfo.Loadable b ⟨elf.entry, elf.isPie, elf.segments.map segmentInfo⟩ ↔
      Fits elf.segments ∧ ¬Overflows b elf.segments := by
  unfold ElfInfo.Loadable
  simp only [List.forall_mem_map, List.pairwise_map]
  constructor
  · intro h
    obtain ⟨hpos, hapart, hstack, hround⟩ := h
    have hplaced : Placed elf.segments := by
      refine ⟨hpos, hapart.imp_of_mem fun hs ht hst => ?_⟩
      exact (pages_disjoint_iff (hpos _ hs) (hpos _ ht)).mpr hst
    refine ⟨⟨hplaced, fun seg hseg => ?_⟩, (not_overflows_iff hplaced).mpr fun seg hseg hb => ?_⟩
    · exact (stack_disjoint_iff (hpos seg hseg)).mpr (hstack seg hseg)
    · exact hround hb seg hseg
  · intro h
    obtain ⟨⟨hplaced, hstack⟩, hover⟩ := h
    have hround := (not_overflows_iff hplaced).mp hover
    refine ⟨hplaced.nonempty, hplaced.disjoint.imp_of_mem fun hs ht hst => ?_, ?_, ?_⟩
    · exact (pages_disjoint_iff (hplaced.nonempty _ hs) (hplaced.nonempty _ ht)).mp hst
    · exact fun seg hseg => (stack_disjoint_iff (hplaced.nonempty seg hseg)).mp (hstack seg hseg)
    · exact fun hb seg hseg => hround seg hseg hb

/-! ### What an inspection says about a run -/

section Predict
variable {U : Type} [LawfulUnicorn U]

/-- A guest that starts as the inspection describes it. -/
structure Describes (info : ElfInfo) (v : Vcpu U) : Prop where
  entry : Unicorn.regRead v.uc .RIP = .ok info.entry
  static : info.isPie = false
  mapped : ∀ a, (LawfulUnicorn.space v.uc).Mapped a ↔
    (∃ s ∈ info.segments, s.lo ≤ a ∧ a < s.hi) ∨ a ∈ stackRange
  perms : ∀ s ∈ info.segments, ∀ a, s.lo ≤ a → a < s.hi →
    ∀ m ∈ (LawfulUnicorn.space v.uc).mappings, a ∈ m.range →
      m.attr = ⟨s.flags.getLsbD 2, s.flags.getLsbD 1, s.flags.getLsbD 0⟩
  zeroed : ∀ s ∈ info.segments, ∀ a, s.lo ≤ a → a < s.hi →
    a ∉ span s.vaddr.toNat s.filesz.toNat → (LawfulUnicorn.space v.uc).byte a = 0

def headerInfo (p : ProgramHeader) : SegmentInfo :=
  ⟨p.pVaddr, p.pMemsz, p.pFilesz, p.pFlags, p.pAlign⟩

theorem mem_pages_iff (p : ProgramHeader) (a : ℕ) :
    a ∈ ProgramHeader.pages p ↔ (headerInfo p).lo ≤ a ∧ a < (headerInfo p).hi := by
  have hlo := pageDown_le 0x1000 p.pVaddr.toNat
  have hhi := le_pageUp (p := pageBytes) (by decide) (p.pVaddr.toNat + p.pMemsz.toNat)
  unfold ProgramHeader.pages headerInfo SegmentInfo.lo SegmentInfo.hi
  rw [mem_span]
  dsimp only
  omega

theorem describes_of_starts {image : Image} {elf : ParsedElf} {v : Vcpu U}
    (hstart : StartsFrom image elf (LawfulUnicorn.space v.uc))
    (hentry : Unicorn.regRead v.uc .RIP = .ok elf.entry) :
    Describes ⟨elf.entry, false, elf.loads.map headerInfo⟩ v := by
  constructor
  case entry => exact hentry
  case static => rfl
  case mapped =>
    intro a
    rw [hstart.mapped]
    simp only [List.mem_map, exists_exists_and_eq_and, mem_pages_iff]
  case perms =>
    intro s hs a hlo hhi
    obtain ⟨p, hp, rfl⟩ := List.mem_map.mp hs
    exact hstart.perms p hp a ((mem_pages_iff p a).mpr ⟨hlo, hhi⟩)
  case zeroed =>
    intro s hs a hlo hhi hout
    obtain ⟨p, hp, rfl⟩ := List.mem_map.mp hs
    by_cases hin : a ∈ p.range
    · have hrange : p.pVaddr.toNat ≤ a ∧ a < p.pVaddr.toNat + p.pMemsz.toNat := hin
      have hfile : p.pFilesz.toNat ≤ a - p.pVaddr.toNat := by
        by_contra hlt
        exact hout (mem_span.mpr ⟨hrange.1, by show a < p.pVaddr.toNat + p.pFilesz.toNat; omega⟩)
      have hbss := hstart.bss p hp (a - p.pVaddr.toNat) hfile (by omega)
      rw [Nat.add_sub_cancel' hrange.1] at hbss
      exact hbss
    · exact hstart.padding p hp a ((mem_pages_iff p a).mpr ⟨hlo, hhi⟩) hin

theorem parseElf_eq_ok {b : Build} {parse : Image → Except String ParsedElf} {image : Image}
    {info : ElfInfo} (hinfo : parseElf b parse image = .ok info) :
    ∃ elf, loadElf b parse image = .ok elf ∧
      info = ⟨elf.entry, elf.isPie, elf.segments.map segmentInfo⟩ := by
  unfold parseElf at hinfo
  cases hload : loadElf b parse image with
  | fault p =>
    rw [hload] at hinfo
    cases hinfo
  | err e =>
    rw [hload] at hinfo
    cases hinfo
  | ok elf =>
    rw [hload] at hinfo
    cases hinfo
    exact ⟨elf, rfl, rfl⟩

theorem ready_iff_loadable {h : Host U} (hh : h.Lawful) {uc : U} (hnew : h.newEngine = .ok uc)
    {image : Image} {info : ElfInfo} (hinfo : parseElf h.build h.parse image = .ok info) :
    (∃ v, ready h image = .ok v) ↔ info.Loadable h.build := by
  obtain ⟨elf, hload, rfl⟩ := parseElf_eq_ok hinfo
  rw [loadable_iff]
  rcases ready_segments hh hload hnew with
    ⟨v, hready, hfits, hround, -⟩ | ⟨hready, hover⟩ | ⟨base, reason, hready, hbusy, -⟩
  · exact iff_of_true ⟨v, hready⟩ ⟨hfits, hround⟩
  · exact iff_of_false (by simp [hready]) fun h => h.2 hover
  · exact iff_of_false (by simp [hready]) fun h => hbusy h.1

theorem describes_of_ready {h : Host U} (hh : h.Lawful) {image : Image} {info : ElfInfo}
    (hinfo : parseElf h.build h.parse image = .ok info) {v : Vcpu U}
    (hready : ready h image = .ok v) : Describes info v := by
  obtain ⟨elf, hload, rfl⟩ := parseElf_eq_ok hinfo
  obtain ⟨parsed, hs⟩ := started_of_ready hh hready
  obtain ⟨parsed', hparse, -, -, rfl⟩ := loadElf_eq_ok h.build hload
  rw [hs.parsed, Except.ok.injEq] at hparse
  subst hparse
  rw [List.map_map]
  exact describes_of_starts hs.memory hs.entry

theorem runElf_of_parseElf_err {h : Host U} {image : Image} {e : PyErr}
    (hbad : parseElf h.build h.parse image = .err e) (timeoutMs : U64) :
    runElf h image timeoutMs = .err e := by
  unfold parseElf at hbad
  cases hload : loadElf h.build h.parse image with
  | ok elf =>
    rw [hload] at hbad
    cases hbad
  | fault p =>
    rw [hload] at hbad
    cases hbad
  | err e' =>
    rw [hload] at hbad
    cases hbad
    unfold runElf ready
    rw [hload]
    rfl

/-- An image that cannot be inspected cannot be run, for the same reason; where an engine
is to be had, an inspected one is run exactly when its report shows it to be loadable,
and starts as reported. -/
theorem parseElf_predicts (h : Host U) (hh : h.Lawful) (uc : U) (hnew : h.newEngine = .ok uc)
    (image : Image) :
    (∀ e, parseElf h.build h.parse image = .err e → ∀ timeoutMs,
      runElf h image timeoutMs = .err e) ∧
    ∀ info, parseElf h.build h.parse image = .ok info →
      ((∃ v, ready h image = .ok v) ↔ info.Loadable h.build) ∧
      ∀ v, ready h image = .ok v → Describes info v := by
  constructor
  · intro e hbad timeoutMs
    exact runElf_of_parseElf_err hbad timeoutMs
  · intro info hinfo
    exact ⟨ready_iff_loadable hh hnew hinfo, fun v hready => describes_of_ready hh hinfo hready⟩

theorem greeting_predicted :
    (∀ e, parseElf .debug (fun _ => .ok greeting.parsed) greetingImage = .err e → ∀ timeoutMs,
      runElf (hostOf greeting) greetingImage timeoutMs = .err e) ∧
    ∀ info, parseElf .debug (fun _ => .ok greeting.parsed) greetingImage = .ok info →
      ((∃ v, ready (hostOf greeting) greetingImage = .ok v) ↔ info.Loadable .debug) ∧
      ∀ v, ready (hostOf greeting) greetingImage = .ok v → Describes info v :=
  parseElf_predicts (hostOf greeting) (hostOf_lawful greeting) FlatEngine.new rfl greetingImage

example : ∃ info, parseElf .debug (fun _ => .ok greeting.parsed) greetingImage = .ok info ∧
    info.Loadable .debug :=
  ⟨⟨0x400078, false, [⟨0x400078, 36, 36, 5, 0x1000⟩]⟩, by decide +kernel, by decide +kernel⟩

end Predict
end WinVpwn.Python
