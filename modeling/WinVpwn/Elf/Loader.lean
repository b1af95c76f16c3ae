import WinVpwn.Memory.Mmap

/-!
# The ELF loader (elf/loader.rs)

`goblin` is a dependency: its `Elf::parse` is a parameter, and `ParsedElf` and
`ProgramHeader` are the fields of its result. Nothing is assumed to relate them.
-/

namespace WinVpwn.Elf
open Rust WinVpwn.Memory

/-- `goblin::elf::program_header::ProgramHeader`. -/
structure ProgramHeader where
  pType : U32
  pFlags : U32
  pOffset : U64
  pVaddr : U64
  pFilesz : U64
  pMemsz : U64
  pAlign : U64
  deriving DecidableEq, Repr

/-- `goblin::elf::Elf`. -/
structure ParsedElf where
  is64 : Bool
  littleEndian : Bool
  eMachine : U16
  eType : U16
  entry : U64
  programHeaders : List ProgramHeader
  deriving DecidableEq, Repr

def EM_X86_64 : U16 := 62
def ET_EXEC : U16 := 2
def ET_DYN : U16 := 3
def PT_LOAD : U32 := 1

/-- The image, a `&[u8]`: a slice spans at most `isize::MAX` bytes. -/
structure Image where
  bytes : List U8
  length_le : bytes.length ≤ isizeMax
  deriving DecidableEq

/-- `Segment` (loader.rs:17). -/
structure Segment where
  vaddr : U64
  memsz : U64
  filesz : U64
  data : List U8
  flags : U32
  align : U64
  deriving DecidableEq, Repr

/-- `Segment::file_bytes` (loader.rs:34). -/
def Segment.fileBytes {ε : Type} (seg : Segment) : Outcome ε (List U8) :=
  slice seg.data 0 seg.filesz.toNat

/-- `LoadedElf` (loader.rs:41). -/
structure LoadedElf where
  entry : U64
  segments : List Segment
  isPie : Bool
  deriving DecidableEq, Repr

/-- `ElfError` (loader.rs:53). -/
inductive ElfError where
  | notElf
  | unsupportedFormat (what : String)
  | unsupportedMachine
  | unsupportedType (found : U16)
  | badPhdr (reason : String)
  | truncated (reason : String)
  | segmentOverlap (vaddr other : U64)
  deriving DecidableEq, Repr

/-- `{:#x}`. -/
def hex (n : ℕ) : String := "0x" ++ String.ofList (Nat.toDigits 16 n)

/-- `code` (loader.rs:72). -/
def ElfError.code : ElfError → String
  | .notElf => "E001"
  | .unsupportedFormat _ => "E002"
  | .unsupportedMachine => "E003"
  | .unsupportedType _ => "E004"
  | .badPhdr _ => "E005"
  | .truncated _ => "E006"
  | .segmentOverlap _ _ => "E007"

/-- `Display for ElfError`. -/
def ElfError.toString (e : ElfError) : String :=
  e.code ++ match e with
    | .notElf => ": not an ELF file (bad magic)"
    | .unsupportedFormat what => ": unsupported image format: " ++ what
    | .unsupportedMachine => ": unsupported machine (stage 1 supports x86_64)"
    | .unsupportedType found =>
      ": unsupported ELF type " ++ Nat.repr found.toNat ++ " (stage 1 supports static ET_EXEC)"
    | .badPhdr reason => ": malformed program header: " ++ reason
    | .truncated reason => ": truncated image: " ++ reason
    | .segmentOverlap vaddr other =>
      ": loadable segment at " ++ hex vaddr.toNat ++ " overlaps segment at " ++ hex other.toNat

structure LoadState where
  segments : List Segment
  map : MemoryMap

/-- The region an overlap error names (loader.rs:160-165): one that contains the
start of the segment, or 0. -/
def culprit {ε : Type} (b : Build) (map : MemoryMap) (vaddr : U64) : Outcome ε U64 := do
  let found ← map.regions.findM? fun r => do
    if ← r.contains b vaddr then return true else return decide (vaddr = r.base)
  return (found.map Region.base).getD 0

/-- `insert` on the map of the loop, a failure naming the region in the way
(loader.rs:155-170). -/
def claim (b : Build) (vaddr size : U64) (flags : U32) : Act LoadState ElfError Unit := fun st =>
  match MemoryMap.insert b vaddr size flags st.map with
  | (.ok _, map) => (.ok (), { st with map := map })
  | (.err _, map) =>
    (culprit b map vaddr >>= fun other => .err (.segmentOverlap vaddr other), { st with map := map })
  | (.fault p, map) => (.fault p, { st with map := map })

/-- The buffer of a segment (loader.rs:184-186): the file bytes over zeros. -/
def segmentData {ε : Type} (image : Image) (phdr : ProgramHeader) (fileEnd : U64) :
    Outcome ε (List U8) := do
  let data ← zeroed phdr.pMemsz.toNat
  let file ← slice image.bytes phdr.pOffset.toNat fileEnd.toNat
  copyInto data 0 file

/-- What the loop does with a header it has claimed (loader.rs:172-196). -/
def loadFile (image : Image) (phdr : ProgramHeader) : Act LoadState ElfError Unit := do
  let fileEnd ← Act.lift (Outcome.okOr (checkedAdd phdr.pOffset phdr.pFilesz)
    (.truncated "PT_LOAD offset+filesz overflows"))
  Act.lift (Outcome.bailIf (image.bytes.length < fileEnd.toNat) (.truncated
    ("PT_LOAD file range " ++ hex phdr.pOffset.toNat ++ ".." ++ hex fileEnd.toNat ++
      " exceeds image size " ++ hex image.bytes.length)))
  let data ← Act.lift (segmentData image phdr fileEnd)
  Act.modify fun st => { st with segments := st.segments ++ [{
    vaddr := phdr.pVaddr, memsz := phdr.pMemsz, filesz := phdr.pFilesz, data := data,
    flags := phdr.pFlags, align := phdr.pAlign }] }

/-- One `PT_LOAD` header (loader.rs:151-196). -/
def loadPhdr (b : Build) (image : Image) (phdr : ProgramHeader) :
    Act LoadState ElfError Unit := do
  let stop ← Act.lift (Outcome.okOr (checkedAdd phdr.pVaddr phdr.pMemsz)
    (.badPhdr "PT_LOAD vaddr+memsz overflows"))
  let size ← Act.lift (b.sub stop phdr.pVaddr)
  claim b phdr.pVaddr size phdr.pFlags
  loadFile image phdr

/-- `elf.program_headers.iter().filter(|p| p.p_type == PT_LOAD)`. -/
def ParsedElf.loads (elf : ParsedElf) : List ProgramHeader :=
  elf.programHeaders.filter fun p => p.pType = PT_LOAD

def elfMagic : List U8 := [0x7f, 0x45, 0x4c, 0x46]

/-- `load_elf` (loader.rs:123). -/
def loadElf (b : Build) (parse : Image → Except String ParsedElf) (image : Image) :
    Outcome ElfError LoadedElf := do
  Outcome.bailIf (image.bytes.length < 4 ∨ image.bytes.take 4 ≠ elfMagic) .notElf
  let elf ← match parse image with
    | .ok elf => .ok elf
    | .error e => .err (.badPhdr e)
  Outcome.bailIf (elf.is64 = false)
    (.unsupportedFormat "32-bit ELF (stage 1 is x86_64 only)")
  Outcome.bailIf (elf.eMachine ≠ EM_X86_64) .unsupportedMachine
  let isPie := decide (elf.eType = ET_DYN)
  -- both branches of the source's test on `is_pie` return this error
  Outcome.bailIf (elf.eType ≠ ET_EXEC) (.unsupportedType elf.eType)
  let loop := elf.loads.forM (loadPhdr b image) ⟨[], MemoryMap.new⟩
  loop.1
  Outcome.bailIf (loop.2.segments.isEmpty) (.badPhdr "no PT_LOAD segments")
  return ⟨elf.entry, loop.2.segments, isPie⟩

/-! ### Executables

An executable as the tests pack one (tests/unit/test_dispatch.py:44): the file
header, the program headers right after it, and the body. -/

structure Exec64 where
  littleEndian : Bool
  entry : U64
  programHeaders : List ProgramHeader
  body : List U8

namespace Exec64
variable (x : Exec64)

def pack (n v : ℕ) : List U8 :=
  let bytes := (List.range n).map fun i => BitVec.ofNat 8 (v / 256 ^ i)
  if x.littleEndian then bytes else bytes.reverse

def packHeader : List U8 :=
  elfMagic ++ [2, if x.littleEndian then 1 else 2, 1, 0, 0, 0, 0, 0, 0, 0, 0, 0] ++
    x.pack 2 ET_EXEC.toNat ++ x.pack 2 EM_X86_64.toNat ++ x.pack 4 1 ++ x.pack 8 x.entry.toNat ++
    x.pack 8 64 ++ x.pack 8 0 ++ x.pack 4 0 ++ x.pack 2 64 ++ x.pack 2 56 ++
    x.pack 2 x.programHeaders.length ++ x.pack 2 0 ++ x.pack 2 0 ++ x.pack 2 0

def packPhdr (p : ProgramHeader) : List U8 :=
  x.pack 4 p.pType.toNat ++ x.pack 4 p.pFlags.toNat ++ x.pack 8 p.pOffset.toNat ++
    x.pack 8 p.pVaddr.toNat ++ x.pack 8 p.pVaddr.toNat ++ x.pack 8 p.pFilesz.toNat ++
    x.pack 8 p.pMemsz.toNat ++ x.pack 8 p.pAlign.toNat

def bytes : List U8 := x.packHeader ++ x.programHeaders.flatMap x.packPhdr ++ x.body

/-- What a decoder of either byte order reads from `bytes`. -/
def parsed : ParsedElf where
  is64 := true
  littleEndian := x.littleEndian
  eMachine := EM_X86_64
  eType := ET_EXEC
  entry := x.entry
  programHeaders := x.programHeaders

end Exec64

end WinVpwn.Elf
