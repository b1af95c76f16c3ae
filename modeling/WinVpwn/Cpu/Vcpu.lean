import Mathlib.Data.List.Infix
import WinVpwn.Elf.Loader
import WinVpwn.Syscall.DispatchImpl

/-!
# The emulation loop (cpu/unicorn_engine.rs)

`Vcpu` owns an engine, a claim map and the record of what it mapped, and shares
the output buffer and the exit and error slots with the `syscall` hook. The
engine sits behind an `Option` that only `Drop` empties; the model has the engine
itself. The dispatcher captured by the hook is a field here.
-/

namespace WinVpwn.Cpu
open Rust WinVpwn.Memory WinVpwn.Elf WinVpwn.Syscall WinVpwn.Vkernel

def PAGE_SIZE : U64 := 0x1000
def STACK_BASE : U64 := 0x7ffffffde000
def STACK_SIZE : U64 := 0x20000

/-- `VcpuError` (unicorn_engine.rs:36). -/
inductive VcpuError where
  | init (msg : String)
  | map (base : U64) (reason : String)
  | regOp (msg : String)
  | exec (msg : String)
  | notLoaded
  deriving DecidableEq, Repr

/-- `code` (unicorn_engine.rs:50). -/
def VcpuError.code : VcpuError → String
  | .init _ => "E501"
  | .map _ _ => "E502"
  | .regOp _ => "E503"
  | .exec _ => "E504"
  | .notLoaded => "E505"

/-- `Display for VcpuError`. -/
def VcpuError.toString (e : VcpuError) : String :=
  e.code ++ match e with
    | .init msg => ": failed to initialize emulator: " ++ msg
    | .map base reason => ": cannot map guest region at " ++ hex base.toNat ++ ": " ++ reason
    | .regOp msg => ": register/memory error: " ++ msg
    | .exec msg => ": execution error: " ++ msg
    | .notLoaded => ": image not loaded"

/-- `From<MmapError>`. -/
def VcpuError.ofMmap (e : MmapError) : VcpuError := .map e.base "guest address space overlap"

/-- State shared between the hook and the owner (unicorn_engine.rs:97). -/
structure SharedState where
  output : List U8
  exitReason : Option ExitReason
  engineError : Option String

def SharedState.new : SharedState := ⟨[], none, none⟩

structure Vcpu (U : Type) where
  uc : U
  shared : SharedState
  map : MemoryMap
  regions : List (U64 × U64 × U32)
  dispatch : Dispatch (UnicornGuest U)

namespace Vcpu
variable {U : Type} [Unicorn U]

/-- `new` (unicorn_engine.rs:123), on an engine just created. -/
def new (dispatch : Dispatch (UnicornGuest U)) (uc : U) : Vcpu U where
  uc := uc
  shared := SharedState.new
  map := MemoryMap.new
  regions := []
  dispatch := dispatch

def onEngine {α : Type} (f : String → VcpuError) (call : U → Except String α × U) :
    Act (Vcpu U) VcpuError α :=
  Act.zoom Vcpu.uc (fun uc v => { v with uc := uc }) (engineCall f call)

/-- `self.map.insert(..)?`. -/
def claimRange (b : Build) (base size : U64) (prot : U32) : Act (Vcpu U) VcpuError Unit :=
  Act.zoom Vcpu.map (fun m v => { v with map := m })
    ((MemoryMap.insert b base size prot).mapErr VcpuError.ofMmap)

/-! ### Mapping -/

/-- The steps `map_elf` and `map_memory` share: claim a range, then map it. -/
def mapRange (b : Build) (base size : U64) (flags : U32) (prot : Prot) :
    Act (Vcpu U) VcpuError Unit := do
  claimRange b base size flags
  onEngine (.map base) (Unicorn.memMap base size prot)

/-- The page-rounded start and size of a segment (unicorn_engine.rs:192-196). -/
def pageRange {ε : Type} (b : Build) (seg : Segment) : Outcome ε (U64 × U64) := do
  let start := seg.vaddr &&& ~~~(PAGE_SIZE - 1)
  let memEnd ← b.add seg.vaddr seg.memsz
  let fileEnd ← b.add seg.vaddr seg.filesz
  let stop := max memEnd fileEnd
  let up ← b.add stop PAGE_SIZE
  let up ← b.sub up 1
  let pageEnd := up &&& ~~~(PAGE_SIZE - 1)
  let size ← b.sub pageEnd start
  return (start, size)

/-- The protection the flags of a segment ask for (unicorn_engine.rs:199-208). -/
def protOf (flags : U32) : Prot :=
  let prot := Prot.NONE
  let prot := if flags &&& 0x4 ≠ 0 then prot ||| Prot.READ else prot
  let prot := if flags &&& 0x2 ≠ 0 then prot ||| Prot.WRITE else prot
  if flags &&& 0x1 ≠ 0 then prot ||| Prot.EXEC else prot

def mapSegment (b : Build) (seg : Segment) : Act (Vcpu U) VcpuError Unit := do
  let (start, size) ← Act.lift (pageRange b seg)
  mapRange b start size seg.flags (protOf seg.flags)
  let offset ← Act.lift (b.sub seg.vaddr start)
  let data ← Act.lift seg.fileBytes
  let addr ← Act.lift (b.add start offset)
  onEngine (.map start) (Unicorn.memWrite addr data)
  Act.modify fun v => { v with regions := v.regions ++ [(start, size, seg.flags)] }

/-- `map_elf` (unicorn_engine.rs:189). -/
def mapElf (b : Build) (image : LoadedElf) : Act (Vcpu U) VcpuError Unit :=
  image.segments.forM (mapSegment b)

/-- `map_memory` (unicorn_engine.rs:226). -/
def mapMemory (b : Build) (base size : U64) (prot : Prot) : Act (Vcpu U) VcpuError Unit := do
  mapRange b base size 0 prot
  Act.modify fun v => { v with regions := v.regions ++ [(base, size, 0)] }

/-- `map_stack` (unicorn_engine.rs:238). -/
def mapStack (b : Build) (base size : U64) : Act (Vcpu U) VcpuError Unit :=
  mapMemory b base size (Prot.READ ||| Prot.WRITE)

/-! ### Registers and memory -/

/-- `write_guest` (unicorn_engine.rs:243). -/
def writeGuest (addr : U64) (data : List U8) : Act (Vcpu U) VcpuError Unit :=
  onEngine .regOp (Unicorn.memWrite addr data)

/-- `set_reg` (unicorn_engine.rs:319). -/
def setReg (reg : RegisterX86) (value : U64) : Act (Vcpu U) VcpuError Unit :=
  onEngine .regOp (Unicorn.regWrite reg value)

/-- `setup_initial_state` (unicorn_engine.rs:263): an empty argument, environment
and auxiliary vector below the top of the stack. -/
def setupInitialState (b : Build) (entry stackTop : U64) : Act (Vcpu U) VcpuError Unit := do
  let argcAddr ← Act.lift (b.sub stackTop 0x20)
  onEngine .regOp (Unicorn.memWrite argcAddr (List.replicate 0x20 0))
  onEngine .regOp (Unicorn.regWrite .RSP argcAddr)
  onEngine .regOp (Unicorn.regWrite .RIP entry)

/-- `output` (unicorn_engine.rs:335). -/
def output (v : Vcpu U) : List U8 := v.shared.output

/-- `exit_reason` (unicorn_engine.rs:340). -/
def exitReason (v : Vcpu U) : Option ExitReason := v.shared.exitReason

/-- The three calls with which `run_elf` prepares a guest (python.rs:34-37). -/
def prepare (b : Build) (elf : LoadedElf) : Act (Vcpu U) VcpuError Unit := do
  mapElf b elf
  mapStack b STACK_BASE STACK_SIZE
  setupInitialState b elf.entry (STACK_BASE + STACK_SIZE)

/-! ### Running -/

/-- The registers of a syscall (unicorn_engine.rs:150-159). -/
def hookRegs (uc : U) : SyscallRegs :=
  SyscallRegs.fromRegs (regReadOrZero uc .RAX).toInt
    #v[regReadOrZero uc .RDI, regReadOrZero uc .RSI, regReadOrZero uc .RDX,
      regReadOrZero uc .R10, regReadOrZero uc .R8, regReadOrZero uc .R9]
    (regReadOrZero uc .RIP)

/-- The context of a syscall, built anew for each one (unicorn_engine.rs:161). -/
def hookContext (uc : U) : Context (UnicornGuest U) := ⟨.running, ⟨uc⟩, OutputCapture.default⟩

/-- What the hook does with the result of the dispatch (unicorn_engine.rs:173-182). -/
def answer (v : Vcpu U) : Outcome DispatchError SyscallOutcome → Vcpu U
  | .ok (.ret ret) => { v with uc := (Unicorn.regWrite .RAX (BitVec.ofInt 64 ret) v.uc).2 }
  | .ok (.exit reason) =>
    { v with shared := { v.shared with exitReason := some reason }, uc := (Unicorn.emuStop v.uc).2 }
  | .err e =>
    { v with
      shared := { v.shared with engineError := some e.toString }, uc := (Unicorn.emuStop v.uc).2 }
  | .fault _ => v

/-- What the hook appends to the output (unicorn_engine.rs:167-170). A panic of the
dispatch unwinds before it. -/
def capturedBy (call : Outcome DispatchError SyscallOutcome ×
    Dispatch (UnicornGuest U) × Context (UnicornGuest U)) : List U8 :=
  match call.1 with
  | .fault _ => []
  | _ => call.2.2.io.combined

/-- The `syscall` hook (unicorn_engine.rs:149). It only ever fails by a fault. -/
def syscallHook : Act (Vcpu U) VcpuError Unit := fun v =>
  let call := Dispatch.dispatch (hookRegs v.uc) (v.dispatch, hookContext v.uc)
  let v' : Vcpu U := { v with
    uc := call.2.2.mem.uc
    dispatch := call.2.1
    shared := { v.shared with output := v.shared.output ++ capturedBy call } }
  match call.1 with
  | .fault p => (.fault p, v')
  | outcome => (.ok (), v'.answer outcome)

end Vcpu

structure EmuCall where
  start : U64
  stop : U64
  timeout : U64
  count : ℕ
  deriving DecidableEq, Repr

/-- What the engine does in one `emu_start` that returns: it hands itself to the
hook at each `syscall` instruction and goes on from what the hook leaves, and at
last returns with a status. -/
inductive Execution (U : Type) where
  | done (uc : U) (status : Except String Unit)
  | syscall (uc : U) (resume : U → Execution U)

namespace Vcpu
variable {U : Type} [Unicorn U]

def emulate : Execution U → Act (Vcpu U) VcpuError (Except String Unit)
  | .done uc status => do
    Act.modify fun v => { v with uc := uc }
    return status
  | .syscall uc resume => do
    Act.modify fun v => { v with uc := uc }
    syscallHook
    let v ← Act.get
    emulate (resume v.uc)

/-- The errors of an engine that mean the guest left its image
(unicorn_engine.rs:289-293). -/
def isFalloff (msg : String) : Bool :=
  ["READ_PROTECT", "FETCH_PROTECT", "READ_UNMAPPED", "FETCH_UNMAPPED", "WRITE_UNMAPPED"].any
    fun code => decide (code.toList <:+: msg.toList)

/-- The result of `run` once `emu_start` has returned (unicorn_engine.rs:284-308). -/
def verdict (v : Vcpu U) : Except String Unit → Outcome VcpuError ExitReason
  | .error msg =>
    if isFalloff msg then .ok (.falloff (regReadOrZero v.uc .RIP)) else .err (.exec msg)
  | .ok () =>
    match v.shared.exitReason, v.shared.engineError with
    | some reason, _ => .ok reason
    | none, some e => .err (.exec e)
    | none, none => .ok .stopped

/-- `run` (unicorn_engine.rs:278), on an engine that behaves as `emuStart` says. -/
def run (timeoutMs : U64) (emuStart : EmuCall → U → Execution U) :
    Act (Vcpu U) VcpuError ExitReason := do
  let v ← Act.get
  let start := regReadOrZero v.uc .RIP
  let status ← emulate (emuStart ⟨start, 0xffffffffffffffff, timeoutMs, 0⟩ v.uc)
  let v ← Act.get
  Act.lift (v.verdict status)

end Vcpu
end WinVpwn.Cpu
