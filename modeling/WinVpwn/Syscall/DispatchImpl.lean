import WinVpwn.Syscall.Dispatch

/-!
# Stage-1 syscall handlers (syscall/dispatch_impl.rs)
-/

namespace WinVpwn.Syscall
open Rust WinVpwn.Cpu WinVpwn.Vkernel WinVpwn.Trace

variable {M : Type}

/-- `write(fd, buf, count)` (dispatch_impl.rs:14). -/
def writeHandler [GuestMemory M] (b : Build) : SyscallHandler M where
  number := 1
  name := "write"
  handle regs := do
    let fd := regs.arg0.toInt
    let ptr := regs.arg1
    let count := regs.arg2.toNat
    if fd ≠ 1 ∧ fd ≠ 2 then
      return .ret (err EBADF)
    else
      let ctx ← Act.get
      let data ← Act.lift ((GuestMemory.read b ctx.mem ptr count).mapErr fun _ =>
        .engine "guest memory read failed")
      Act.modify fun ctx => { ctx with io := ctx.io.write fd data }
      return .ret (BitVec.ofNat 64 data.length).toInt

theorem toInt_length (bs : List U8) (h : bs.length ≤ isizeMax) :
    (BitVec.ofNat 64 bs.length).toInt = bs.length := by
  unfold isizeMax at h
  rw [BitVec.toInt_ofNat']
  exact Int.bmod_eq_of_le (by omega) (by omega)

/-- The body shared by the two exit handlers: the low byte of the first argument
is the exit code. -/
def terminate (regs : SyscallRegs) : Act (Context M) DispatchError SyscallOutcome := do
  let code := (regs.arg0 &&& 0xff).setWidth 8
  Act.modify fun ctx => { ctx with process := .exited code }
  return .exit (.exit code)

/-- `exit(status)` (dispatch_impl.rs:46). -/
def exitHandler : SyscallHandler M := ⟨60, "exit", terminate⟩

/-- `exit_group(status)` (dispatch_impl.rs:69). -/
def exitGroupHandler : SyscallHandler M := ⟨231, "exit_group", terminate⟩

/-- `register_all` (dispatch_impl.rs:90). -/
def registerAll [GuestMemory M] (b : Build) (d : Dispatch M) : Dispatch M :=
  [writeHandler b, exitHandler, exitGroupHandler].foldl Dispatch.register d

/-- A dispatcher with the stage-1 handlers and any trace attachment. -/
def stage1 [GuestMemory M] (b : Build) (trace : Option TraceSink) : Dispatch M :=
  registerAll b { Dispatch.new with trace := trace }

/-- The stage-1 handlers, in registration order. -/
def IsStage1 [GuestMemory M] (b : Build) (d : Dispatch M) : Prop :=
  d.handlers = [writeHandler b, exitHandler, exitGroupHandler]

theorem stage1_isStage1 [GuestMemory M] (b : Build) (trace : Option TraceSink) :
    IsStage1 b (stage1 b trace : Dispatch M) := rfl

/-! ### The registers as the handlers read them -/

namespace SyscallRegs

def fd (r : SyscallRegs) : ℤ := r.arg0.toInt
def count (r : SyscallRegs) : ℕ := r.arg2.toNat
def exitCode (r : SyscallRegs) : U8 := (r.arg0 &&& 0xff).setWidth 8

theorem exitCode_toNat (r : SyscallRegs) : r.exitCode.toNat = r.arg0.toNat % 256 := by
  have hmask : (r.arg0 &&& 0xff).toNat = r.arg0.toNat % 256 :=
    Nat.and_two_pow_sub_one_eq_mod r.arg0.toNat 8
  rw [exitCode, BitVec.toNat_setWidth, hmask]
  exact Nat.mod_mod _ _

/-- A `write` to one of the two standard streams, the only call that reads memory. -/
def IsStreamWrite (r : SyscallRegs) : Prop := r.syscallNr = 1 ∧ (r.fd = 1 ∨ r.fd = 2)

def IsExit (r : SyscallRegs) : Prop := r.syscallNr = 60 ∨ r.syscallNr = 231

instance (r : SyscallRegs) : Decidable r.IsStreamWrite := inferInstanceAs (Decidable (_ ∧ _))
instance (r : SyscallRegs) : Decidable r.IsExit := inferInstanceAs (Decidable (_ ∨ _))

end SyscallRegs

theorem not_streamWrite_of_exit (r : SyscallRegs) (h : r.IsExit) : ¬r.IsStreamWrite := by
  intro h
  obtain ⟨hnr, -⟩ := h
  unfold SyscallRegs.IsExit at h
  omega

/-! ### What a stage-1 call does

A call ends the process, writes to a standard stream, or is refused with an
errno before anything is touched. -/

section Step
variable [GuestMemory M] (b : Build) {d : Dispatch M} (hd : IsStage1 b d) (r : SyscallRegs)
include hd

theorem find_stage1 (nr : ℤ) :
    d.find nr = if nr = 1 then some (writeHandler b) else if nr = 60 then some exitHandler
      else if nr = 231 then some exitGroupHandler else none := by
  rw [Dispatch.find, hd]
  simp only [List.find?_cons, List.find?_nil, writeHandler, exitHandler, exitGroupHandler,
    eq_comm (b := nr)]
  split_ifs with h₁ h₂ h₃ <;> simp [*]

theorem handle_exit (hr : r.IsExit) (ctx : Context M) :
    d.handle r ctx =
      (.ok (.exit (.exit r.exitCode)), { ctx with process := .exited r.exitCode }) := by
  unfold Dispatch.handle
  rw [find_stage1 b hd]
  rcases hr with hr | hr <;> rw [hr] <;> rfl

theorem handle_write (hr : r.IsStreamWrite) (ctx : Context M) :
    d.handle r ctx = match GuestMemory.read b ctx.mem r.arg1 r.count with
      | .ok data => (.ok (.ret (BitVec.ofNat 64 data.length).toInt),
          { ctx with io := ctx.io.write r.fd data })
      | .err _ => (.err (.engine "guest memory read failed"), ctx)
      | .fault p => (.fault p, ctx) := by
  have hfd : ¬(r.arg0.toInt ≠ 1 ∧ r.arg0.toInt ≠ 2) := by
    have h := hr.2
    unfold SyscallRegs.fd at h
    omega
  unfold Dispatch.handle SyscallRegs.count SyscallRegs.fd
  rw [find_stage1 b hd, hr.1]
  simp only [if_true, writeHandler, if_neg hfd, Act.bind_apply, Act.get_apply, Act.lift_apply]
  cases GuestMemory.read b ctx.mem r.arg1 r.arg2.toNat <;> rfl

theorem handle_refused (hw : ¬r.IsStreamWrite) (he : ¬r.IsExit) (ctx : Context M) :
    d.handle r ctx = (.ok (.ret (if r.syscallNr = 1 then err EBADF else err ENOSYS)), ctx) := by
  unfold Dispatch.handle
  rw [find_stage1 b hd]
  unfold SyscallRegs.IsExit at he
  rw [not_or] at he
  rw [if_neg he.1, if_neg he.2]
  split_ifs with h
  · have hfd : r.arg0.toInt ≠ 1 ∧ r.arg0.toInt ≠ 2 := by
      unfold SyscallRegs.IsStreamWrite SyscallRegs.fd at hw
      omega
    simp only [writeHandler, if_pos hfd]
    rfl
  · rfl

end Step
/-! ### A syscall and the host

Which calls return to the emulator. The count of a `write` goes unchecked from a
guest register into a buffer request, so the answer depends on it and not only
on what the guest has mapped. -/

theorem stage1_returns_iff {M : Type} [GuestMemory M] (b : Build) (trace : Option TraceSink)
    (ctx : Context M) (r : SyscallRegs) :
    (Dispatch.dispatch r (stage1 b trace, ctx)).1.Returns ↔
      (r.IsStreamWrite → (GuestMemory.read b ctx.mem r.arg1 r.count).Returns) := by
  have hd : IsStage1 b (stage1 b trace : Dispatch M) := stage1_isStage1 b trace
  rw [Dispatch.dispatch_fst]
  by_cases hw : r.IsStreamWrite
  · rw [handle_write b hd r hw]
    cases GuestMemory.read b ctx.mem r.arg1 r.count <;> simp [hw]
  · by_cases he : r.IsExit
    · rw [handle_exit b hd r he]
      simp [hw]
    · rw [handle_refused b hd r hw he]
      simp [hw]

/-- A stage-1 call returns exactly when it is not a write to a standard stream,
or its count is at most `isize::MAX` and, on the in-memory backend of a debug
build, the buffer does not run through mapped regions over the top of the
address space. -/
theorem dispatch_returns_iff (b : Build) (trace : Option TraceSink) (r : SyscallRegs) :
    (∀ ctx : Context InMemGuest,
      (Dispatch.dispatch r (stage1 b trace, ctx)).1.Returns ↔
        (r.IsStreamWrite → r.count ≤ isizeMax ∧
          ¬(b = .debug ∧ 2 ^ 64 ≤ r.arg1.toNat + r.count ∧ ctx.mem.ClimbsToTop r.arg1))) ∧
    (∀ (U : Type) [Unicorn U] (ctx : Context (UnicornGuest U)),
      (Dispatch.dispatch r (stage1 b trace, ctx)).1.Returns ↔
        (r.IsStreamWrite → r.count ≤ isizeMax)) := by
  constructor
  · intro ctx
    rw [stage1_returns_iff]
    exact imp_congr_right fun _ => InMemGuest.read_returns_iff b ctx.mem r.arg1 r.count
  · intro U _ ctx
    rw [stage1_returns_iff]
    exact imp_congr_right fun _ => UnicornGuest.read_returns_iff b ctx.mem r.arg1 r.count

/- `write(1, 0, 2^63)` asks for one byte more than `Vec` ever grants. -/
theorem write_count_panics :
    ¬(Dispatch.dispatch (SyscallRegs.fromRegs 1 #v[1, 0, 0x8000000000000000, 0, 0, 0] 0x401000)
      (stage1 .release none, ⟨.running, InMemGuest.new, OutputCapture.default⟩)).1.Returns := by
  rw [stage1_returns_iff]
  intro h
  have hcount : 0x8000000000000000 ≤ isizeMax :=
    ((InMemGuest.read_returns_iff .release InMemGuest.new 0 _).mp (h (by decide))).1
  exact absurd hcount (by decide)

end WinVpwn.Syscall
