import Mathlib.Data.Rat.Floor
import WinVpwn.Cpu.Events

/-!
# From the command line to the engine (src/winvpwn/cli.py, python.rs)

`run` hands the bytes of the file and the truncated timeout to `run_elf`, which
loads, maps and runs the image. A finite float is the rational number it denotes;
the others, and what `run` does with the result, are in `Python/Cli`.
-/

namespace WinVpwn.Python
open Rust WinVpwn.Elf WinVpwn.Cpu WinVpwn.Syscall WinVpwn.Trace WinVpwn.Vkernel

/-- The exceptions of a call into the extension module. -/
inductive PyErr where
  | valueError (msg : String)
  | overflowError
  deriving DecidableEq, Repr

/-- `to_err` (python.rs:104). -/
def toErr (e : VcpuError) : PyErr := .valueError e.toString

/-- The dict `run_elf` returns (python.rs:42-75). -/
structure RunReport where
  exit : String
  code : Option U8
  rip : Option U64
  output : List U8
  trace : List TraceRecord
  deriving DecidableEq, Repr

/-- What the extension module is linked with, on a machine that has an engine or not. -/
structure Host (U : Type) where
  build : Build
  parse : Image → Except String ParsedElf
  newEngine : Except String U
  emuStart : EmuCall → U → Execution U

section Run
variable {U : Type} [Unicorn U]

/-- The dispatcher of a run: the stage-1 handlers and a fresh sink (python.rs:28-31). -/
def runDispatch (b : Build) : Dispatch (UnicornGuest U) :=
  (registerAll b Dispatch.new).setTrace TraceSink.new

/-- `run_elf` up to the run (python.rs:26-37). -/
def ready (h : Host U) (image : Image) : Outcome PyErr (Vcpu U) := do
  let elf ← (loadElf h.build h.parse image).mapErr fun e => .valueError e.toString
  let uc ← match h.newEngine with
    | .ok uc => .ok uc
    | .error msg => .err (toErr (.init msg))
  let start := Vcpu.prepare h.build elf (Vcpu.new (runDispatch h.build) uc)
  start.1.mapErr toErr
  return start.2

/-- The dict of a run (python.rs:42-74); the sink is drained into it. -/
def report (v : Vcpu U) (reason : ExitReason) : RunReport :=
  let trace := match v.dispatch.trace with
    | some sink => sink.drain.1
    | none => []
  match reason with
  | .exit code => ⟨"exit", some code, none, v.output, trace⟩
  | .falloff rip => ⟨"falloff", none, some rip, v.output, trace⟩
  | .stopped => ⟨"stopped", none, none, v.output, trace⟩

/-- `run_elf` (python.rs:25). -/
def runElf (h : Host U) (image : Image) (timeoutMs : U64) : Outcome PyErr RunReport := do
  let v ← ready h image
  let ran := Vcpu.run timeoutMs h.emuStart v
  let reason ← ran.1.mapErr toErr
  return report ran.2 reason

/-- `int(timeout)`, which truncates towards zero. -/
def int (timeout : ℚ) : ℤ := if timeout < 0 then -(-timeout).floor else timeout.floor

/-- The conversion of an argument to `u64`. -/
def toU64 (n : ℤ) : Outcome PyErr U64 :=
  if 0 ≤ n ∧ n < 2 ^ 64 then .ok (BitVec.ofInt 64 n) else .err .overflowError

/-- `core.run_elf(image, int(timeout))`, in the `run` command (cli.py:54). -/
def runCommand (h : Host U) (image : Image) (timeout : ℚ) : Outcome PyErr RunReport := do
  let timeoutMs ← toU64 (int timeout)
  runElf h image timeoutMs

end Run
end WinVpwn.Python
