import WinVpwn.Lib.Numeral
import WinVpwn.Elf.LoadError
import WinVpwn.Python.ParseElf

/-!
# The texts of the errors

Python sees an error of the crate as its text only. The text still tells which error it
was, values included. Three checks of the loader share the code E005 and a free text, the
one of the parser among them; as long as the parser does not word its message as the
loader words its own two, the text tells which check an image failed.
-/

namespace WinVpwn.Python
open Rust Lib WinVpwn.Elf WinVpwn.Cpu WinVpwn.Syscall WinVpwn.Trace WinVpwn.Vkernel

/-! ### One text, one error -/

theorem code_split {c c' s t : String} (hlen : c.toList.length = c'.toList.length)
    (h : c ++ s = c' ++ t) : c = c' ∧ s = t := by
  have hlists := congrArg String.toList h
  rw [String.toList_append, String.toList_append] at hlists
  obtain ⟨hcode, hrest⟩ := List.append_inj hlists hlen
  exact ⟨String.toList_inj.mp hcode, String.toList_inj.mp hrest⟩

theorem hex_split {sep : Char} (hsep : ∀ d < 16, Nat.digitChar d ≠ sep) {m n : ℕ} {s t : String}
    (h : hex m ++ (String.singleton sep ++ s) = hex n ++ (String.singleton sep ++ t)) :
    m = n ∧ s = t := by
  unfold hex at h
  rw [String.append_assoc, String.append_assoc, String.append_right_inj] at h
  have hlists := congrArg String.toList h
  simp only [String.toList_append, String.toList_ofList, String.toList_singleton] at hlists
  obtain ⟨hnum, hrest⟩ := numeral_split (by decide) (by decide) hsep hlists
  exact ⟨hnum, String.toList_inj.mp hrest⟩

theorem not_digit_space : ∀ d < 16, Nat.digitChar d ≠ ' ' := by decide

theorem not_digit_dot : ∀ d < 16, Nat.digitChar d ≠ '.' := by decide

theorem hex_injective : Function.Injective hex := by
  intro m n h
  have hsame : hex m ++ (String.singleton ' ' ++ "") = hex n ++ (String.singleton ' ' ++ "") := by
    rw [h]
  exact (hex_split not_digit_space hsame).1

theorem elfText_injective : Function.Injective ElfError.toString := by
  intro e e' h
  have hlen : e.code.toList.length = e'.code.toList.length :=
    (formatCodes_length _ (elfCode_mem e)).trans (formatCodes_length _ (elfCode_mem e')).symm
  obtain ⟨hcode, htext⟩ := code_split hlen h
  -- errors of two kinds have two codes
  cases e <;> cases e' <;> first | (simp [ElfError.code] at hcode; done) | skip
  case notElf.notElf => rfl
  case unsupportedFormat.unsupportedFormat what what' =>
    rw [String.append_right_inj] at htext
    rw [htext]
  case unsupportedMachine.unsupportedMachine => rfl
  case unsupportedType.unsupportedType found found' =>
    dsimp only at htext
    rw [String.append_left_inj, String.append_right_inj] at htext
    have hnum := congrArg String.toList htext
    rw [Nat.toList_repr, Nat.toList_repr] at hnum
    rw [BitVec.eq_of_toNat_eq (toDigits_injective (by decide) (by decide) hnum)]
  case badPhdr.badPhdr reason reason' =>
    rw [String.append_right_inj] at htext
    rw [htext]
  case truncated.truncated reason reason' =>
    rw [String.append_right_inj] at htext
    rw [htext]
  case segmentOverlap.segmentOverlap vaddr other vaddr' other' =>
    have hsep : " overlaps segment at " = String.singleton ' ' ++ "overlaps segment at " := rfl
    dsimp only at htext
    simp only [String.append_assoc, String.append_right_inj, hsep] at htext
    obtain ⟨hvaddr, hrest⟩ := hex_split not_digit_space htext
    rw [String.append_right_inj] at hrest
    rw [BitVec.eq_of_toNat_eq hvaddr, BitVec.eq_of_toNat_eq (hex_injective hrest)]

theorem vcpuCode_length (e : VcpuError) : e.code.toList.length = 4 := by
  cases e <;> simp [VcpuError.code]

theorem elfText_ne_vcpuText (e : ElfError) (v : VcpuError) : e.toString ≠ v.toString := by
  intro h
  have hlen : e.code.toList.length = v.code.toList.length :=
    (formatCodes_length _ (elfCode_mem e)).trans (vcpuCode_length v).symm
  obtain ⟨hcode, -⟩ := code_split hlen h
  cases e <;> cases v <;> simp [ElfError.code, VcpuError.code] at hcode

/-! ### One error, one check -/

/-- The texts the loader gives for two of its checks under the parser's code. -/
def ownTexts : List String := ["PT_LOAD vaddr+memsz overflows", "no PT_LOAD segments"]

/-- The text of a file range that is past the image (loader.rs:176-183). -/
def shortText (offset fileEnd size : ℕ) : String :=
  "PT_LOAD file range " ++ hex offset ++ ".." ++ hex fileEnd ++ " exceeds image size " ++ hex size

/-- The checks of `load_elf`, with the values their errors show. -/
inductive Check where
  | magic
  | decode (msg : { msg : String // msg ∉ ownTexts })
  | format
  | machine
  | type (found : U16)
  | wraps
  | meets (vaddr other : U64)
  | fileWraps
  | short (offset fileEnd size : ℕ)
  | nothing

/-- The error of a check. -/
def Check.error : Check → ElfError
  | .magic => .notElf
  | .decode msg => .badPhdr msg
  | .format => .unsupportedFormat "32-bit ELF (stage 1 is x86_64 only)"
  | .machine => .unsupportedMachine
  | .type found => .unsupportedType found
  | .wraps => .badPhdr "PT_LOAD vaddr+memsz overflows"
  | .meets vaddr other => .segmentOverlap vaddr other
  | .fileWraps => .truncated "PT_LOAD offset+filesz overflows"
  | .short offset fileEnd size => .truncated (shortText offset fileEnd size)
  | .nothing => .badPhdr "no PT_LOAD segments"

/-- The text Python sees of it. -/
def Check.text (c : Check) : String := c.error.toString

theorem shortText_ne (offset fileEnd size : ℕ) :
    shortText offset fileEnd size ≠ "PT_LOAD offset+filesz overflows" := by
  intro h
  have hfile : "PT_LOAD file range " = "PT_LOAD f" ++ "ile range " := rfl
  have hoffset : "PT_LOAD offset+filesz overflows" = "PT_LOAD o" ++ "ffset+filesz overflows" := rfl
  unfold shortText at h
  rw [hfile, hoffset] at h
  simp only [String.append_assoc] at h
  have hlen : "PT_LOAD f".toList.length = "PT_LOAD o".toList.length := by decide
  have hstart : "PT_LOAD f" = "PT_LOAD o" := (code_split hlen h).1
  exact absurd hstart (by decide)

theorem shortText_inj {offset fileEnd size offset' fileEnd' size' : ℕ}
    (h : shortText offset fileEnd size = shortText offset' fileEnd' size') :
    offset = offset' ∧ fileEnd = fileEnd' ∧ size = size' := by
  have hdots : ".." = String.singleton '.' ++ "." := rfl
  have hexceeds : " exceeds image size " = String.singleton ' ' ++ "exceeds image size " := rfl
  unfold shortText at h
  simp only [String.append_assoc, String.append_right_inj, hdots, hexceeds] at h
  obtain ⟨hoffset, hrest⟩ := hex_split not_digit_dot h
  rw [String.append_right_inj] at hrest
  obtain ⟨hend, hrest⟩ := hex_split not_digit_space hrest
  rw [String.append_right_inj] at hrest
  exact ⟨hoffset, hend, hex_injective hrest⟩

theorem foreign_ne (msg : { msg : String // msg ∉ ownTexts }) {text : String}
    (hown : text ∈ ownTexts) : msg.val ≠ text := by
  intro h
  exact msg.property (h ▸ hown)

theorem checkError_injective : Function.Injective Check.error := by
  have hwraps : "PT_LOAD vaddr+memsz overflows" ∈ ownTexts := List.mem_cons_self ..
  have hnothing : "no PT_LOAD segments" ∈ ownTexts := List.mem_cons_of_mem _ (List.mem_cons_self ..)
  intro c d h
  -- checks of two codes have two errors; those of one code are told apart by their texts
  cases c <;> cases d <;> first | rfl | (simp [Check.error] at h; done) | skip
  case decode.decode msg msg' => rw [Subtype.ext (ElfError.badPhdr.inj h)]
  case decode.wraps msg => exact absurd (ElfError.badPhdr.inj h) (foreign_ne msg hwraps)
  case decode.nothing msg => exact absurd (ElfError.badPhdr.inj h) (foreign_ne msg hnothing)
  case wraps.decode msg => exact absurd (ElfError.badPhdr.inj h).symm (foreign_ne msg hwraps)
  case nothing.decode msg => exact absurd (ElfError.badPhdr.inj h).symm (foreign_ne msg hnothing)
  case type.type found found' => rw [ElfError.unsupportedType.inj h]
  case meets.meets vaddr other vaddr' other' =>
    obtain ⟨hvaddr, hother⟩ := ElfError.segmentOverlap.inj h
    rw [hvaddr, hother]
  case fileWraps.short offset fileEnd size =>
    exact absurd (ElfError.truncated.inj h).symm (shortText_ne offset fileEnd size)
  case short.fileWraps offset fileEnd size =>
    exact absurd (ElfError.truncated.inj h) (shortText_ne offset fileEnd size)
  case short.short offset fileEnd size offset' fileEnd' size' =>
    obtain ⟨rfl, rfl, rfl⟩ := shortText_inj (ElfError.truncated.inj h)
    rfl

/-! ### Refused images -/

/-- The loop gets to the header `p`, with the headers `pre` loaded before it. -/
def Reached (parse : Image → Except String ParsedElf) (image : Image) (pre : List ProgramHeader)
    (p : ProgramHeader) : Prop :=
  ∃ elf post, parse image = .ok elf ∧ HeaderOk image elf ∧ elf.loads = pre ++ p :: post ∧
    Accepts image pre ∧ ∀ q ∈ pre, q.Sized

/-- The image fails the check, with its values, and passed all checks before it. -/
inductive Failed (parse : Image → Except String ParsedElf) (image : Image) : Check → Prop
  | magic (hmagic : ¬elfMagic <+: image.bytes) : Failed parse image .magic
  | decode (msg : { msg : String // msg ∉ ownTexts }) (hmagic : elfMagic <+: image.bytes)
    (hparse : parse image = .error msg) : Failed parse image (.decode msg)
  | format (elf : ParsedElf) (hmagic : elfMagic <+: image.bytes) (hparse : parse image = .ok elf)
    (h32 : elf.is64 = false) : Failed parse image .format
  | machine (elf : ParsedElf) (hmagic : elfMagic <+: image.bytes) (hparse : parse image = .ok elf)
    (h64 : elf.is64 = true) (hmachine : elf.eMachine ≠ EM_X86_64) : Failed parse image .machine
  | type (elf : ParsedElf) (hmagic : elfMagic <+: image.bytes) (hparse : parse image = .ok elf)
    (h64 : elf.is64 = true) (hmachine : elf.eMachine = EM_X86_64) (htype : elf.eType ≠ ET_EXEC) :
    Failed parse image (.type elf.eType)
  | wraps (pre : List ProgramHeader) (p : ProgramHeader) (hreached : Reached parse image pre p)
    (hwrap : 2 ^ 64 ≤ p.pVaddr.toNat + p.pMemsz.toNat) : Failed parse image .wraps
  | meets (pre : List ProgramHeader) (p : ProgramHeader) (other : U64)
    (hreached : Reached parse image pre p) (hguest : p.pVaddr.toNat + p.pMemsz.toNat < 2 ^ 64)
    (hmeet : ∃ q ∈ pre, ¬Disjoint q.range p.range) (hblames : Blames pre p.pVaddr other) :
    Failed parse image (.meets p.pVaddr other)
  | fileWraps (pre : List ProgramHeader) (p : ProgramHeader) (hreached : Reached parse image pre p)
    (hguest : p.pVaddr.toNat + p.pMemsz.toNat < 2 ^ 64)
    (hclear : ∀ q ∈ pre, Disjoint q.range p.range)
    (hwrap : 2 ^ 64 ≤ p.pOffset.toNat + p.pFilesz.toNat) : Failed parse image .fileWraps
  | short (pre : List ProgramHeader) (p : ProgramHeader) (hreached : Reached parse image pre p)
    (hguest : p.pVaddr.toNat + p.pMemsz.toNat < 2 ^ 64)
    (hclear : ∀ q ∈ pre, Disjoint q.range p.range)
    (hend : p.pOffset.toNat + p.pFilesz.toNat < 2 ^ 64)
    (hshort : image.bytes.length < p.pOffset.toNat + p.pFilesz.toNat) :
    Failed parse image
      (.short p.pOffset.toNat (p.pOffset.toNat + p.pFilesz.toNat) image.bytes.length)
  | nothing (elf : ParsedElf) (hparse : parse image = .ok elf) (hok : HeaderOk image elf)
    (hnone : elf.loads = []) : Failed parse image .nothing

theorem Reached.rejected {parse : Image → Except String ParsedElf} {image : Image}
    {pre : List ProgramHeader} {p : ProgramHeader} {e : ElfError} (h : Reached parse image pre p)
    (hrefused : Refused image pre p e) : Rejected parse image e := by
  obtain ⟨elf, post, hparse, hok, hsplit, hacc, hsized⟩ := h
  exact .header elf pre p post e hparse hok hsplit hacc hsized hrefused

theorem Failed.rejected {parse : Image → Except String ParsedElf} {image : Image} {c : Check}
    (h : Failed parse image c) : Rejected parse image c.error := by
  cases h with
  | magic hmagic => exact .magic hmagic
  | decode msg hmagic hparse => exact .undecoded msg hmagic hparse
  | format elf hmagic hparse h32 => exact .format elf hmagic hparse h32
  | machine elf hmagic hparse h64 hmachine => exact .machine elf hmagic hparse h64 hmachine
  | type elf hmagic hparse h64 hmachine htype =>
    exact .type elf hmagic hparse h64 hmachine htype
  | wraps pre p hreached hwrap => exact hreached.rejected (.wraps hwrap)
  | meets pre p other hreached hguest hmeet hblames =>
    exact hreached.rejected (.meets other hguest hmeet hblames)
  | fileWraps pre p hreached hguest hclear hwrap =>
    exact hreached.rejected (.fileWraps hguest hclear hwrap)
  | short pre p hreached hguest hclear hend hshort =>
    exact hreached.rejected (.short hguest hclear hend hshort)
  | nothing elf hparse hok hnone => exact .nothing elf hparse hok hnone

/-- The parser words no message as the loader words one of its own. -/
def ForeignWords (parse : Image → Except String ParsedElf) : Prop :=
  ∀ image msg, parse image = .error msg → msg ∉ ownTexts

theorem failed_of_rejected {parse : Image → Except String ParsedElf} (hwords : ForeignWords parse)
    {image : Image} {e : ElfError} (h : Rejected parse image e) :
    ∃ c, Failed parse image c ∧ c.error = e := by
  cases h with
  | magic hmagic => exact ⟨_, .magic hmagic, rfl⟩
  | undecoded msg hmagic hparse =>
    exact ⟨_, .decode ⟨msg, hwords image msg hparse⟩ hmagic hparse, rfl⟩
  | format elf hmagic hparse h32 => exact ⟨_, .format elf hmagic hparse h32, rfl⟩
  | machine elf hmagic hparse h64 hmachine =>
    exact ⟨_, .machine elf hmagic hparse h64 hmachine, rfl⟩
  | type elf hmagic hparse h64 hmachine htype =>
    exact ⟨_, .type elf hmagic hparse h64 hmachine htype, rfl⟩
  | header elf pre p post _ hparse hok hsplit hacc hsized hrefused =>
    have hreached : Reached parse image pre p := ⟨elf, post, hparse, hok, hsplit, hacc, hsized⟩
    cases hrefused with
    | wraps hwrap => exact ⟨_, .wraps pre p hreached hwrap, rfl⟩
    | meets other hguest hmeet hblames =>
      exact ⟨_, .meets pre p other hreached hguest hmeet hblames, rfl⟩
    | fileWraps hguest hclear hwrap =>
      exact ⟨_, .fileWraps pre p hreached hguest hclear hwrap, rfl⟩
    | short hguest hclear hend hshort =>
      exact ⟨_, .short pre p hreached hguest hclear hend hshort, rfl⟩
  | nothing elf hparse hok hnone => exact ⟨_, .nothing elf hparse hok hnone, rfl⟩

theorem loadElf_failed_iff (b : Build) {parse : Image → Except String ParsedElf}
    (hwords : ForeignWords parse) (image : Image) (c : Check) :
    loadElf b parse image = .err c.error ↔ Failed parse image c := by
  constructor
  · intro hload
    obtain ⟨c', hfailed, hsame⟩ := failed_of_rejected hwords (rejected_of_loadElf b hload)
    rw [← checkError_injective hsame]
    exact hfailed
  · exact fun h => loadElf_of_rejected b h.rejected

section Refusal
variable {U : Type} [Unicorn U]

theorem runElf_raises {h : Host U} {image : Image} {timeoutMs : U64} {err : PyErr}
    (hrun : runElf h image timeoutMs = .err err) :
    (∃ e, loadElf h.build h.parse image = .err e ∧ err = .valueError e.toString) ∨
      ∃ e, err = toErr e := by
  unfold runElf ready at hrun
  rcases Outcome.bind_eq_err.mp hrun with hready | ⟨v, -, hend⟩
  · rcases Outcome.bind_eq_err.mp hready with hparse | ⟨elf, -, hrest⟩
    · obtain ⟨e, hload, rfl⟩ := Outcome.mapErr_eq_err.mp hparse
      exact .inl ⟨e, hload, rfl⟩
    right
    cases hnew : h.newEngine with
    | error msg =>
      simp only [hnew, Outcome.err_bind] at hrest
      cases hrest
      exact ⟨.init msg, rfl⟩
    | ok uc =>
      simp only [hnew, Outcome.ok_bind] at hrest
      rcases Outcome.bind_eq_err.mp hrest with hstart | ⟨a, -, hdone⟩
      · obtain ⟨e, -, rfl⟩ := Outcome.mapErr_eq_err.mp hstart
        exact ⟨e, rfl⟩
      · cases hdone
  · right
    rcases Outcome.bind_eq_err.mp hend with hran | ⟨reason, -, hdone⟩
    · obtain ⟨e, -, rfl⟩ := Outcome.mapErr_eq_err.mp hran
      exact ⟨e, rfl⟩
    · cases hdone

theorem parseElf_raises {b : Build} {parse : Image → Except String ParsedElf} {image : Image}
    {err : PyErr} (hraise : parseElf b parse image = .err err) :
    ∃ e, loadElf b parse image = .err e ∧ err = .valueError e.toString := by
  unfold parseElf at hraise
  rcases Outcome.bind_eq_err.mp hraise with hparse | ⟨elf, -, hdone⟩
  · obtain ⟨e, hload, rfl⟩ := Outcome.mapErr_eq_err.mp hparse
    exact ⟨e, hload, rfl⟩
  · cases hdone

theorem parseElf_err_iff {b : Build} {parse : Image → Except String ParsedElf} {image : Image}
    {e : ElfError} : parseElf b parse image = .err (.valueError e.toString) ↔
      loadElf b parse image = .err e := by
  unfold parseElf
  cases hload : loadElf b parse image with
  | ok elf => simp
  | fault p => simp
  | err e' =>
    simp only [Outcome.mapErr, Outcome.err_bind, Outcome.err.injEq, PyErr.valueError.injEq]
    exact elfText_injective.eq_iff

theorem runElf_err_iff {h : Host U} {image : Image} {timeoutMs : U64} {e : ElfError} :
    runElf h image timeoutMs = .err (.valueError e.toString) ↔
      loadElf h.build h.parse image = .err e := by
  constructor
  · intro hrun
    rcases runElf_raises hrun with ⟨e', hload, htext⟩ | ⟨v, htext⟩
    · rw [PyErr.valueError.injEq] at htext
      rw [hload, elfText_injective htext]
    · exact absurd (PyErr.valueError.inj htext) (elfText_ne_vcpuText e v)
  · intro hload
    unfold runElf ready
    rw [hload]
    rfl

/-- The text of an error tells the check an image failed, and with which values: it is
raised, by an inspection as by a run of any length, exactly when the image fails this check
and passed all before it; and an inspection raises nothing but such texts. -/
theorem text_tells_check (h : Host U) (hwords : ForeignWords h.parse) (image : Image) :
    (∀ c : Check, (parseElf h.build h.parse image = .err (.valueError c.text) ↔
        Failed h.parse image c) ∧
      ∀ timeoutMs, runElf h image timeoutMs = .err (.valueError c.text) ↔
        Failed h.parse image c) ∧
    ∀ err, parseElf h.build h.parse image = .err err →
      ∃ c : Check, err = .valueError c.text ∧ Failed h.parse image c := by
  constructor
  · intro c
    have hload := loadElf_failed_iff h.build hwords image c
    exact ⟨parseElf_err_iff.trans hload, fun _ => runElf_err_iff.trans hload⟩
  · intro err hraise
    obtain ⟨e, hload, rfl⟩ := parseElf_raises hraise
    obtain ⟨c, hfailed, rfl⟩ := failed_of_rejected hwords (rejected_of_loadElf h.build hload)
    exact ⟨c, rfl, hfailed⟩

theorem fromBelow_told :
    (∀ c : Check,
      (parseElf .debug (fun _ => .ok fromBelow.parsed) fromBelowImage = .err (.valueError c.text) ↔
        Failed (fun _ => .ok fromBelow.parsed) fromBelowImage c) ∧
      ∀ timeoutMs, runElf (hostOf fromBelow) fromBelowImage timeoutMs = .err (.valueError c.text) ↔
        Failed (fun _ => .ok fromBelow.parsed) fromBelowImage c) ∧
    ∀ err, parseElf .debug (fun _ => .ok fromBelow.parsed) fromBelowImage = .err err →
      ∃ c : Check, err = .valueError c.text ∧
        Failed (fun _ => .ok fromBelow.parsed) fromBelowImage c :=
  text_tells_check (hostOf fromBelow) (fun _ _ hparse => by cases hparse) fromBelowImage

example : parseElf .debug (fun _ => .ok fromBelow.parsed) fromBelowImage =
    .err (.valueError (Check.meets 0x1000 0).text) := by
  decide +kernel

end Refusal
end WinVpwn.Python
