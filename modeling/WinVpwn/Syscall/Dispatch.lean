import Mathlib.Data.List.Destutter
import Mathlib.Data.List.Sort
import WinVpwn.Vkernel.Context

/-!
# Syscalls, their trace and the dispatcher (syscall/dispatch.rs, errno.rs, trace/recorder.rs)

An `i64` is an integer; the casts between it and a 64-bit word are the two's
complement ones. A `TraceSink` is a handle on a buffer shared by its clones, each
call on it atomic under the mutex; the model is the buffer, passed along.
`Dispatch` owns the handlers and routes syscall numbers to them. A call works on
the dispatcher and the context together, because the attached sink is written
through the shared reference.
-/

/-! ### Registers, outcomes and errnos -/

namespace WinVpwn.Syscall
open Rust WinVpwn.Vkernel

/-- `SyscallRegs` (dispatch.rs:16). -/
structure SyscallRegs where
  syscallNr : ℤ
  arg0 : U64
  arg1 : U64
  arg2 : U64
  arg3 : U64
  arg4 : U64
  arg5 : U64
  rip : U64
  deriving DecidableEq, Repr

/-- `SyscallRegs::from_regs`: `args` is `[rdi, rsi, rdx, r10, r8, r9]`. -/
def SyscallRegs.fromRegs (syscallNr : ℤ) (args : Vector U64 6) (rip : U64) : SyscallRegs where
  syscallNr := syscallNr
  arg0 := args[0]
  arg1 := args[1]
  arg2 := args[2]
  arg3 := args[3]
  arg4 := args[4]
  arg5 := args[5]
  rip := rip

def SyscallRegs.args (r : SyscallRegs) : Vector U64 6 :=
  #v[r.arg0, r.arg1, r.arg2, r.arg3, r.arg4, r.arg5]

/-- `SyscallOutcome` (dispatch.rs:47). -/
inductive SyscallOutcome where
  | ret (ret : ℤ)
  | exit (reason : ExitReason)
  deriving DecidableEq, Repr

/-- `DispatchError` (dispatch.rs:70). -/
inductive DispatchError where
  | mismatch
  | engine (msg : String)
  deriving DecidableEq, Repr

/-- `Display for DispatchError`. -/
def DispatchError.toString : DispatchError → String
  | .mismatch => "E201: syscall handler mismatch"
  | .engine msg => "E202: engine error: " ++ msg

def ENOSYS : ℤ := 38
def EBADF : ℤ := 9

/-- `err` (errno.rs:16). -/
def err (errno : ℤ) : ℤ := -errno

end WinVpwn.Syscall

/-! ### The trace -/

namespace WinVpwn.Trace
open Rust WinVpwn.Vkernel WinVpwn.Syscall

/-- `TraceRecord` (recorder.rs:9). -/
structure TraceRecord where
  seq : U64
  nr : ℤ
  name : String
  args : Vector U64 6
  ret : ℤ
  rip : U64
  deriving DecidableEq, Repr

structure TraceSink where
  records : List TraceRecord
  deriving DecidableEq, Repr

namespace TraceSink

def new : TraceSink := ⟨[]⟩

/-- The `ret` field of a record: an exit has no return value and is shown as 0. -/
def retOf : SyscallOutcome → ℤ
  | .ret ret => ret
  | .exit _ => 0

/-- `record` (recorder.rs:35). -/
def record (sink : TraceSink) (name : String) (nr : ℤ) (args : Vector U64 6) (rip : U64)
    (outcome : SyscallOutcome) : TraceSink :=
  ⟨sink.records ++ [⟨BitVec.ofNat 64 sink.records.length, nr, name, args, retOf outcome, rip⟩]⟩

/-- `drain` (recorder.rs:53): the records so far, and the emptied sink. -/
def drain (sink : TraceSink) : List TraceRecord × TraceSink := (sink.records, new)

end TraceSink
end WinVpwn.Trace

/-! ### The dispatcher -/

namespace WinVpwn.Syscall
open Rust WinVpwn.Vkernel WinVpwn.Trace

/-- `SyscallHandler` (dispatch.rs:55). A handler sees the context and the
registers, and nothing else. -/
structure SyscallHandler (M : Type) where
  number : ℤ
  name : String
  handle : SyscallRegs → Act (Context M) DispatchError SyscallOutcome

structure Dispatch (M : Type) where
  handlers : List (SyscallHandler M)
  trace : Option TraceSink

namespace Dispatch
variable {M : Type}

def new : Dispatch M := ⟨[], none⟩

/-- `register` (dispatch.rs:101). -/
def register (d : Dispatch M) (handler : SyscallHandler M) : Dispatch M :=
  { d with handlers := d.handlers.filter (fun h => h.number ≠ handler.number) ++ [handler] }

/-- `set_trace` (dispatch.rs:107). -/
def setTrace (d : Dispatch M) (sink : TraceSink) : Dispatch M := { d with trace := some sink }

/-- `find` (dispatch.rs:111). -/
def find (d : Dispatch M) (nr : ℤ) : Option (SyscallHandler M) :=
  d.handlers.find? fun h => h.number = nr

def nameOf (d : Dispatch M) (nr : ℤ) : String :=
  ((d.find nr).map SyscallHandler.name).getD "<unimplemented>"

def traced (d : Dispatch M) (regs : SyscallRegs) (outcome : SyscallOutcome) : Dispatch M :=
  match d.trace with
  | some sink =>
    d.setTrace (sink.record (d.nameOf regs.syscallNr) regs.syscallNr regs.args regs.rip outcome)
  | none => d

/-- The match of `dispatch` on the handler found. -/
def handle (d : Dispatch M) (regs : SyscallRegs) : Act (Context M) DispatchError SyscallOutcome :=
  match d.find regs.syscallNr with
  | some h => h.handle regs
  | none => pure (.ret (err ENOSYS))

/-- `dispatch` (dispatch.rs:116). The `?` on the handler's result comes before
the recording. -/
def dispatch (regs : SyscallRegs) : Act (Dispatch M × Context M) DispatchError SyscallOutcome := do
  let s ← Act.get
  let outcome ← Act.zoom Prod.snd (fun ctx s => (s.1, ctx)) (s.1.handle regs)
  Act.modify fun s => (s.1.traced regs outcome, s.2)
  return outcome

/-- `get` (dispatch.rs:138). -/
def get (d : Dispatch M) (nr : ℤ) : Option (SyscallHandler M) := d.find nr

/-- `implemented` (dispatch.rs:143). `dedup` drops an element equal to the one kept
before it. -/
def implemented (d : Dispatch M) : List ℤ :=
  ((d.handlers.map SyscallHandler.number).insertionSort (· ≤ ·)).destutter (· ≠ ·)

theorem handle_congr {d d' : Dispatch M} (h : ∀ nr, d.find nr = d'.find nr) (regs : SyscallRegs) :
    d.handle regs = d'.handle regs := by
  unfold handle
  rw [h]

theorem nameOf_congr {d d' : Dispatch M} (h : ∀ nr, d.find nr = d'.find nr) (nr : ℤ) :
    d.nameOf nr = d'.nameOf nr := by
  unfold nameOf
  rw [h]

/-! ### What one call does -/

section Step
variable (d : Dispatch M) (ctx ctx' : Context M) (regs : SyscallRegs)

theorem dispatch_ok (o : SyscallOutcome) (h : d.handle regs ctx = (.ok o, ctx')) :
    dispatch regs (d, ctx) = (.ok o, (d.traced regs o, ctx')) := by
  simp [dispatch, Act.bind_apply, Act.zoom, h]

theorem dispatch_err (e : DispatchError) (h : d.handle regs ctx = (.err e, ctx')) :
    dispatch regs (d, ctx) = (.err e, (d, ctx')) := by
  simp [dispatch, Act.bind_apply, Act.zoom, h]

theorem dispatch_fault (p : Fault) (h : d.handle regs ctx = (.fault p, ctx')) :
    dispatch regs (d, ctx) = (.fault p, (d, ctx')) := by
  simp [dispatch, Act.bind_apply, Act.zoom, h]

/- The value and the context of a call are the handler's; only the sink is
`dispatch`'s own. -/
theorem dispatch_fst : (dispatch regs (d, ctx)).1 = (d.handle regs ctx).1 := by
  rcases h : d.handle regs ctx with ⟨o, ctx'⟩
  cases o with
  | ok o => rw [dispatch_ok d ctx ctx' regs o h]
  | err e => rw [dispatch_err d ctx ctx' regs e h]
  | fault p => rw [dispatch_fault d ctx ctx' regs p h]

theorem dispatch_ctx : (dispatch regs (d, ctx)).2.2 = (d.handle regs ctx).2 := by
  rcases h : d.handle regs ctx with ⟨o, ctx'⟩
  cases o with
  | ok o => rw [dispatch_ok d ctx ctx' regs o h]
  | err e => rw [dispatch_err d ctx ctx' regs e h]
  | fault p => rw [dispatch_fault d ctx ctx' regs p h]

@[simp] theorem traced_handlers (o : SyscallOutcome) : (d.traced regs o).handlers = d.handlers := by
  unfold traced
  cases d.trace <;> rfl

theorem dispatch_handlers : (dispatch regs (d, ctx)).2.1.handlers = d.handlers := by
  rcases h : d.handle regs ctx with ⟨o, ctx'⟩
  cases o with
  | ok o => rw [dispatch_ok d ctx ctx' regs o h]; exact traced_handlers d regs o
  | err e => rw [dispatch_err d ctx ctx' regs e h]
  | fault p => rw [dispatch_fault d ctx ctx' regs p h]

theorem dispatch_trace : (dispatch regs (d, ctx)).2.1.trace = match (d.handle regs ctx).1 with
    | .ok o => d.trace.map fun sink =>
        sink.record (d.nameOf regs.syscallNr) regs.syscallNr regs.args regs.rip o
    | _ => d.trace := by
  rcases h : d.handle regs ctx with ⟨o, ctx'⟩
  cases o with
  | ok o =>
    rw [dispatch_ok d ctx ctx' regs o h]
    show (d.traced regs o).trace = _
    unfold traced
    cases hsink : d.trace with
    | none => exact hsink
    | some sink => rfl
  | err e => rw [dispatch_err d ctx ctx' regs e h]
  | fault p => rw [dispatch_fault d ctx ctx' regs p h]

end Step

end Dispatch
end WinVpwn.Syscall
